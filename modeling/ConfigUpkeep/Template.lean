/-
# ConfigUpkeep.Template -- the template that comes with the tool

The layout that documents are normalized to unless another template is named.  It is
given by its lines, section by section; the last line is empty, so that the text ends
with a line feed.
-/
import ConfigUpkeep.Text

namespace ConfigUpkeep.Template

set_option autoImplicit false

/-- The rule above and below the title of a section. -/
def rule : Text :=
  "# ============================================================================="

/-- What the file is, and the version of its layout. -/
def opening : List Text :=
  [ "#!/usr/bin/env zsh",
    "# Worktree Tools Configuration",
    "# Copy to: ~/.config/worktree-tools/config.zsh",
    [],
    "# Config version (for migrations)",
    "CONFIG_VERSION=1",
    [] ]

/-- The settings everybody makes. -/
def required : List Text :=
  [ rule,
    "# REQUIRED: Update these for your setup",
    rule,
    [],
    "GIT_USERNAME=\"$\x7bUSER\x7d\"",
    [],
    "# Branch prefix (set to \"\" for no prefix)",
    "# \"john\" creates: john/my-feature",
    "# \"\" creates: my-feature",
    "BRANCH_PREFIX=\"$\x7bUSER\x7d\"",
    [],
    "# Where you ran setup_repos.sh (contains .repos/ and worktrees/)",
    "# Examples: \"$HOME/work/mobile\", \"$HOME/dev\", \"$HOME/projects\"",
    "BASE_DEV_PATH=\"$HOME/dev\"",
    [] ]

/-- The alias table and its examples. -/
def shortcuts : List Text :=
  [ rule,
    "# Repository shortcuts",
    rule,
    [],
    "[[ -z $\x7b(t)REPO_MAPPINGS\x7d ]] && declare -gA REPO_MAPPINGS",
    [],
    "# Add your repos here:",
    "# REPO_MAPPINGS[shorthand]=\"Full-Repo-Name\"",
    "#",
    "# Examples:",
    "# REPO_MAPPINGS[acmd]=\"Company-Android\"",
    "# REPO_MAPPINGS[alib]=\"Company-Android-Library\"",
    "# REPO_MAPPINGS[icmd]=\"Company-iOS\"",
    "# REPO_MAPPINGS[ilib]=\"Company-iOS-Library\"",
    [] ]

/-- The optional section on editors. -/
def editors : List Text :=
  [ rule,
    "# Optional: IDE configuration (uncomment to enable 'ide' command)",
    rule,
    [],
    "# Opens the configured IDE when you run 'ide' from within a repo",
    "# Format: \"ide_type|workspace_path|fallback_command\"",
    "#",
    "# NOTE: You can use either shorthand OR full repo name as keys.",
    "#       Shorthand is recommended, but both work for backward compatibility.",
    [],
    "# REPO_IDE_CONFIGS[acmd]=\"android-studio||\"",
    "# REPO_IDE_CONFIGS[alib]=\"android-studio||\"",
    "# REPO_IDE_CONFIGS[icmd]=\"xcode-workspace|Company-iOS.xcworkspace|\"",
    "# REPO_IDE_CONFIGS[ilib]=\"xcode-package|.swiftpm/xcode/package.xcworkspace|swift package generate-xcodeproj\"",
    [] ]

/-- The optional section on build commands. -/
def builds : List Text :=
  [ rule,
    "# Optional: CI commands (uncomment to enable ci/test/lint shortcuts)",
    rule,
    [],
    "# Enables running 'ci', 'test', or 'lint' from within a repo",
    "# Format: \"build_cmd|test_cmd|lint_cmd\"",
    "#",
    "# NOTE: You can use either shorthand OR full repo name as keys.",
    "#       Shorthand is recommended, but both work for backward compatibility.",
    [],
    "# Android example:",
    "# REPO_CONFIGS[acmd]=\"./gradlew --quiet assembleDebug|./gradlew --quiet testDebugUnitTest|./gradlew --quiet lintDebug detekt\"",
    [],
    "# iOS example:",
    "# REPO_CONFIGS[icmd]=\"bundle exec fastlane build|bundle exec fastlane unit_tests|swiftlint --strict\"",
    [],
    "# Web example:",
    "# REPO_CONFIGS[web]=\"npm run build|npm test|npm run lint\"",
    [] ]

/-- The optional section on modules. -/
def modules : List Text :=
  [ rule,
    "# Optional: Modular builds (uncomment to enable ci_modules/lint_modules)",
    rule,
    [],
    "# For monorepos with multiple modules - lets you select which ones to build/lint",
    "# Format: space-separated list of modules",
    "#",
    "# NOTE: You can use either shorthand OR full repo name as keys.",
    "#       Shorthand is recommended, but both work for backward compatibility.",
    [],
    "# Android modules:",
    "# REPO_MODULES[acmd]=\"app-core app-feature-auth app-feature-profile\"",
    [],
    "# iOS modules:",
    "# REPO_MODULES[icmd]=\"CoreModule AuthModule ProfileModule\"",
    [],
    "# Web packages:",
    "# REPO_MODULES[web]=\"packages/ui packages/api packages/utils\"",
    [] ]

/-- The settings that follow from the others. -/
def computed : List Text :=
  [ rule,
    "# Auto-computed paths (don't change unless you have custom structure)",
    rule,
    [],
    "BARE_REPOS_PATH=\"$BASE_DEV_PATH/.repos\"",
    "WORKTREES_PATH=\"$BASE_DEV_PATH/worktrees\"",
    "WORKTREE_TEMPLATES_PATH=\"$BASE_DEV_PATH/worktree_templates\"",
    [] ]

def lines : List Text :=
  opening ++ required ++ shortcuts ++ editors ++ builds ++ modules ++ computed

def text : Text := Text.unlines lines

end ConfigUpkeep.Template
