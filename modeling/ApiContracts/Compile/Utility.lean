import ApiContracts.Compile.Contract

/-!
# The emitted error utility

The module through which business code raises an error with a status of its own: a code, an optional message, and data of any type. It depends on nothing but the library it uses.
-/

namespace ApiContracts.Compile

def utilityLines (config : Config) : List String :=
  [banner, "", "use std::fmt::Debug;", "", "use serde::\x7bDeserialize, Serialize\x7d;", "use serde_json::Value;",
    s!"use {config.runtime}::typed::\x7bHandlerError, StructuredError\x7d;", "",
    "/// Error a business function raises to answer with its own status code.",
    "/// The whole value is sent as the JSON response body.",
    "#[derive(Debug, Clone, PartialEq, Serialize, Deserialize)]", "pub struct ErrorParam<T = String> \x7b",
    "    pub code: u16,", "    #[serde(default, skip_serializing_if = \"Option::is_none\")]",
    "    pub message: Option<String>,", "    pub data: T,", "\x7d", "",
    "impl<T: Default> Default for ErrorParam<T> \x7b", "    fn default() -> Self \x7b", "        Self \x7b",
    "            code: 500,", "            message: None,", "            data: T::default(),", "        \x7d",
    "    \x7d", "\x7d", "", "impl<T: Default> ErrorParam<T> \x7b", "    pub fn new(code: u16) -> Self \x7b",
    "        Self \x7b", "            code,", "            ..Self::default()", "        \x7d", "    \x7d", "\x7d", "",
    "impl<T> ErrorParam<T> \x7b", "    pub fn message(mut self, message: impl Into<String>) -> Self \x7b",
    "        self.message = Some(message.into());", "        self", "    \x7d", "",
    "    pub fn data(mut self, data: T) -> Self \x7b", "        self.data = data;", "        self", "    \x7d", "\x7d",
    "", "impl<T: Serialize + Debug + Send + Sync> StructuredError for ErrorParam<T> \x7b",
    "    fn code(&self) -> u16 \x7b", "        self.code", "    \x7d", "", "    fn payload(&self) -> Value \x7b",
    "        serde_json::to_value(self).unwrap_or(Value::Null)", "    \x7d", "\x7d", "",
    "impl<T: Serialize + Debug + Send + Sync + 'static> From<ErrorParam<T>> for HandlerError \x7b",
    "    fn from(param: ErrorParam<T>) -> Self \x7b", "        HandlerError::structured(param)", "    \x7d", "\x7d", "",
    "/// Error helper handed to every business function.", "pub type ErrorFn = fn(ErrorParam) -> ErrorParam;", "",
    "pub fn error(param: ErrorParam) -> ErrorParam \x7b", "    param", "\x7d"]

def utilityArtifact (config : Config) : Artifact :=
  ⟨"utility", sourceFile config.utilityPath, sourceText (utilityLines config)⟩

end ApiContracts.Compile
