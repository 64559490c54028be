import ApiContracts.Compile.Contract

/-!
# The emitted server

The module that gathers the contracts: the union of their endpoints, the look-up of a contract by its endpoint's key, and the application that implements them.
-/

namespace ApiContracts.Compile

open Text

structure ServerModule where
  config : Config
  contracts : List Contract

namespace ServerModule

def importLine (s : ServerModule) (c : Contract) : String :=
  s!"use {relativePath s.config.serverPath c.modulePath}::\x7b{c.identifier}, {c.identifier}_Contract\x7d;"

def variantLine (c : Contract) : String := s!"    {c.identifier}({c.identifier}),"

def conversionLines (c : Contract) : List String :=
  ["", s!"impl From<{c.identifier}> for Endpoints \x7b", s!"    fn from(endpoint: {c.identifier}) -> Self \x7b",
    s!"        Endpoints::{c.identifier}(endpoint)", "    \x7d", "\x7d"]

def lookupLine (c : Contract) : String := s!"        {quote c.endpoint} => Some({c.identifier}_Contract::sections()),"

def implementLine (c : Contract) : String :=
  s!"            Endpoints::{c.identifier}(descriptor) => self.app.implement(descriptor.0),"

def lines (s : ServerModule) : List String :=
  [banner, "#![allow(non_camel_case_types, unused_imports)]", "", s!"use {s.config.runtime}::error::ConfigError;",
    s!"use {s.config.runtime}::server::\x7bApp, SystemParam\x7d;", s!"use {s.config.runtime}::typed::Contract;",
    s!"use {s.config.runtime}::validator::SectionSpec;"] ++
  s.contracts.map s.importLine ++
  ["", "/// Every endpoint descriptor this server can implement.", "pub enum Endpoints \x7b"] ++
  s.contracts.map variantLine ++ ["\x7d"] ++ s.contracts.flatMap conversionLines ++
  ["", "/// Request contract sections of an endpoint key (`\"METHOD /path\"`).",
    "pub fn request_contract(endpoint: &str) -> Option<&'static [SectionSpec]> \x7b", "    match endpoint \x7b"] ++
  s.contracts.map lookupLine ++
  ["        _ => None,", "    \x7d", "\x7d", "", "#[derive(Default)]", "pub struct AbstractApi \x7b", "    app: App,",
    "\x7d", "", "impl AbstractApi \x7b", "    pub fn new() -> Self \x7b", "        Self::default()", "    \x7d", "",
    "    /// Run `before_start`, then listen on the port (parameter, `PORT`, 3000).",
    "    pub fn init(&mut self, param: SystemParam) -> Result<&mut Self, ConfigError> \x7b",
    "        self.app.init(param)?;", "        Ok(self)", "    \x7d", "",
    "    pub fn implement(&self, endpoint: impl Into<Endpoints>) -> Result<(), ConfigError> \x7b",
    "        let endpoint: Endpoints = endpoint.into();", "        match endpoint \x7b"] ++
  s.contracts.map implementLine ++
  ["        \x7d", "    \x7d", "", "    pub fn app(&self) -> &App \x7b", "        &self.app", "    \x7d", "",
    "    /// Stop listening; `init` may be called again afterwards.", "    pub fn stop(&mut self) \x7b",
    "        self.app.stop();", "    \x7d", "", "    pub fn join(self) -> std::thread::Result<()> \x7b",
    "        self.app.join()", "    \x7d", "\x7d"]

def artifact (s : ServerModule) : Artifact := ⟨"server", sourceFile s.config.serverPath, sourceText s.lines⟩

end ServerModule

end ApiContracts.Compile
