import VirtualUsers.Files
import VirtualUsers.Text
import VirtualUsers.Toml.Document
import VirtualUsers.Value.Coerce
/-!
# Settings

What the program is to do, and how a settings document changes it. Entries count at the top level
of a document or in its `appservice` table; its `logging` table has short names for the settings of
the journal.
-/

namespace VirtualUsers

/-- The settings, each of which may have been given any value. -/
structure Settings where
  configPath : Value := .null
  homeserverUrl : Value := .text "http://localhost:8008"
  homeserverDomain : Value := .text "localhost"
  asToken : Value := .text ""
  botLocalpart : Value := .text "bridgebot"
  registryPath : Value := .null
  requestTimeout : Value := .real (.ofRatio false 30 1)
  typingTimeout : Value := .int 30000
  logLevel : Value := .text "INFO"
  logHttpLevel : Value := .text "WARNING"
  logConsole : Value := .bool true
  logFile : Value := .null
  logFormat : Value :=
    .text "%(asctime)s %(levelname)s %(name)s[%(threadName)s]: %(message)s"
  logDateFormat : Value := .null
deriving Inhabited

namespace Settings

def names : List String :=
  ["homeserver_url", "homeserver_domain", "as_token", "bot_localpart", "registry_path",
    "request_timeout_s", "typing_timeout_ms", "log_level", "log_http_level", "log_console",
    "log_file", "log_format", "log_datefmt"]

def get (name : String) (s : Settings) : Value :=
  match name with
  | "config_path" => s.configPath
  | "homeserver_url" => s.homeserverUrl
  | "homeserver_domain" => s.homeserverDomain
  | "as_token" => s.asToken
  | "bot_localpart" => s.botLocalpart
  | "registry_path" => s.registryPath
  | "request_timeout_s" => s.requestTimeout
  | "typing_timeout_ms" => s.typingTimeout
  | "log_level" => s.logLevel
  | "log_http_level" => s.logHttpLevel
  | "log_console" => s.logConsole
  | "log_file" => s.logFile
  | "log_format" => s.logFormat
  | "log_datefmt" => s.logDateFormat
  | _ => .null

def set (name : String) (v : Value) (s : Settings) : Settings :=
  match name with
  | "config_path" => { s with configPath := v }
  | "homeserver_url" => { s with homeserverUrl := v }
  | "homeserver_domain" => { s with homeserverDomain := v }
  | "as_token" => { s with asToken := v }
  | "bot_localpart" => { s with botLocalpart := v }
  | "registry_path" => { s with registryPath := v }
  | "request_timeout_s" => { s with requestTimeout := v }
  | "typing_timeout_ms" => { s with typingTimeout := v }
  | "log_level" => { s with logLevel := v }
  | "log_http_level" => { s with logHttpLevel := v }
  | "log_console" => { s with logConsole := v }
  | "log_file" => { s with logFile := v }
  | "log_format" => { s with logFormat := v }
  | "log_datefmt" => { s with logDateFormat := v }
  | _ => s

/-- The settings with the given values under their names; other names are refused. -/
def ofFields : List (String × Value) → Except Failure Settings
  | [] => .ok {}
  | (name, v) :: rest =>
    if name == "config_path" || names.contains name then (ofFields rest).map (set name v)
    else .error .wrongType

def fields (s : Settings) : List (String × Value) :=
  ("config_path" :: names).map fun name => (name, s.get name)

def journalNames : List (String × String) :=
  [("log_level", "level"), ("log_http_level", "http_level"), ("log_console", "console"),
    ("log_file", "file"), ("log_format", "format"), ("log_datefmt", "datefmt")]

def tableIn (name : String) (entries : List (Value × Value)) : List (Value × Value) :=
  match Value.lookup? name entries with
  | some (.map inner) => inner
  | _ => []

/-- What a document says of a setting. The logging table counts first, then the `appservice` table,
then the top level. -/
def given? (entries : List (Value × Value)) (name : String) : Option Value :=
  let merged := tableIn "appservice" entries ++ entries
  let journal := (journalNames.lookup name).bind fun short =>
    Value.lookup? short (tableIn "logging" merged)
  journal <|> Value.lookup? name merged

def normalize (name : String) (v : Value) : Except Failure Value :=
  match name, v with
  | "registry_path", .text "" | "log_file", .text "" | "log_datefmt", .text "" => .ok .null
  | "homeserver_url", .text url => .ok (.text (Text.stripSlashes url))
  | "request_timeout_s", v => v.toDouble.map .real
  | "typing_timeout_ms", v => v.toInt.map .int
  | _, v => .ok v

def overlayOne (entries : List (Value × Value)) (s : Settings) (name : String) :
    Except Failure Settings :=
  match given? entries name with
  | some v => (normalize name v).map fun v => s.set name v
  | none => .ok s

/-- The settings after a document. One that is no map changes nothing. -/
def overlay (s : Settings) (document : Value) : Except Failure Settings :=
  match document with
  | .map entries => names.foldlM (overlayOne entries) s
  | _ => .ok s

end Settings

end VirtualUsers

namespace VirtualUsers.Settings

/-! ## Documents

Settings from a TOML document. The path of the document itself is among the settings, and it is the
one that no document can change. -/

/-- A line feed after a carriage return stands for both. -/
def joinLineEnds : List Char → List Char
  | '\r' :: '\n' :: rest => '\n' :: joinLineEnds rest
  | c :: rest => c :: joinLineEnds rest
  | [] => []

def ofText (path : String) (base : Settings) (text : String) : Except Failure Settings :=
  match Toml.read? (joinLineEnds text.toList) with
  | some document => overlay { base with configPath := .text path } document.toValue
  | none => .error .settingsSyntax

def ofBytes (path : String) (base : Settings) (bytes : List UInt8) : Except Failure Settings :=
  match Text.ofUtf8? bytes with
  | some text => ofText path base text
  | none => .error .notUtf8

def load (files : FileTree) (path : String) (base : Settings) : Except Failure Settings :=
  files.read path >>= ofText path base

/-! ## The first document

What is written where there are no settings yet, for the user to fill in. -/

/-- The lines of the first settings document, with the given path of the registry. -/
def initialLines (registryPath : String) : List String :=
  ["# mxintent configuration (TOML)",
    "#",
    "# This file was created on first run.",
    "# Fill in the homeserver details and the appservice token, then run mxintent again.",
    "",
    "[appservice]",
    "",
    "# Client-server API base URL of the homeserver.",
    "homeserver_url = \"http://localhost:8008\"",
    "",
    "# Server name used to build user ids (@localpart:domain).",
    "homeserver_domain = \"localhost\"",
    "",
    "# as_token from the appservice registration file.",
    "as_token = \"\"",
    "",
    "# Localpart of the appservice bot. The bot invites virtual users into rooms",
    "# they are not allowed to join on their own.",
    "bot_localpart = \"bridgebot\"",
    "",
    "# Registered virtual users are remembered here so restarts do not re-register them.",
    "registry_path = " ++ Text.quoted registryPath,
    "",
    "# Per-request timeout. Failed requests are not retried.",
    "request_timeout_s = 30.0",
    "",
    "# Typing notification timeout used by the `typing` command.",
    "typing_timeout_ms = 30000",
    "",
    "[logging]",
    "",
    "level = \"INFO\"",
    "",
    "# Log level for the HTTP stack (urllib3/requests).",
    "http_level = \"WARNING\"",
    "",
    "console = true",
    "",
    "# Optional file path for logs (leave empty to disable).",
    "file = \"\"",
    "",
    "format = \"%(asctime)s %(levelname)s %(name)s[%(threadName)s]: %(message)s\"",
    "datefmt = \"\""]

def initialText (registryPath : String) : String :=
  String.join ((initialLines registryPath).map (· ++ "\n"))

end VirtualUsers.Settings
