import SuiteBalance.Json.Parser
import SuiteBalance.Settings.File
import SuiteBalance.Terminal.Console

/-!
# Platforms

A **`Platform`** is what commands stand on besides files and the environment: how deep documents and
values may be nested, what reads the configuration file, and the console.
-/

namespace SuiteBalance

/-- The limits of a machine, and the libraries that commands use. -/
class Platform extends Json.Levels, Value.Stack, Yaml.Loader, Terminal.Console

end SuiteBalance
