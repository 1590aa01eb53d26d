import Chatbox.Chat.Session
import Chatbox.Network.ServerBrowser
import Chatbox.Protocol.ClientGrammar
import Chatbox.Storage.Database

/-!
The command line of a dedicated server, from the arguments to the configuration of the
server that is started. Any argument can become the password, and the server compares what
clients send with it as it stands; what clients can send is another matter.
-/

namespace Chatbox.App

open Text Protocol Network Chat

def SERVER_HISTORY_LIMIT : Nat := 100

/-- `tls::ServerConfig` -/
structure ServerConfig where
  enabled : Bool := false
  certificatePath : Bytes := []
  privateKeyPath : Bytes := []
deriving DecidableEq, Repr

/-- `tls::ClientConfig`, as far as the command line sets it. -/
structure BrowserTlsConfig where
  enabled : Bool := true
  caPath : Bytes := []
  expectedFingerprint : Bytes := []
  trustStorePath : Bytes
deriving DecidableEq, Repr

structure DedicatedServerConfig where
  port : UInt16 := 0
  password : Bytes := []
  logfile : Bytes := ascii "chatlog.txt"
  database : Bytes := []
  bansFile : Bytes := ascii "bans.txt"
  identitiesFile : Bytes := ascii "identities.txt"
  browserHost : Bytes := []
  browserName : Bytes := ascii "chatbox dedicated server"
  browserPublicHost : Bytes := []
  historyLimit : Nat := SERVER_HISTORY_LIMIT
  enableLogging : Bool := true
  logToStdoutOnly : Bool := false
  enableUpnp : Bool := true
  publishToBrowser : Bool := false
  tls : ServerConfig := { enabled := true }
  browserTls : BrowserTlsConfig
deriving DecidableEq, Repr

/-- The end of the program: what it returns and writes to `std::cerr`, and whether it shows
the usage. -/
structure Exit where
  code : Nat
  message : Bytes := []
  usage : Bool := false
deriving DecidableEq, Repr

def parsePort (text : Bytes) : Option UInt16 := parseU16Field text

def parseBrowserAddress (text : Bytes) : Option Bytes :=
  let host := sanitizeBrowserField text HOST_MAX_LEN
  if host.isEmpty then none
  else if 58 ∈ host then none
  else some host

/-- The options that stand alone. -/
inductive Flag where
  | noUpnp
  | noLog
  | logStdout
  | allowPlaintext
  | requireTls
  | browserPlaintext
deriving DecidableEq, Repr

def Flag.text : Flag → Bytes
  | .noUpnp => ascii "--no-upnp"
  | .noLog => ascii "--no-log"
  | .logStdout => ascii "--log-stdout"
  | .allowPlaintext => ascii "--allow-plaintext"
  | .requireTls => ascii "--require-tls"
  | .browserPlaintext => ascii "--browser-plaintext"

/-- The options that are followed by a value. -/
inductive ValueOption where
  | password
  | log
  | database
  | historyLimit
  | tlsCert
  | tlsKey
  | importBans
  | importIdentities
  | identities
  | browserTlsCa
  | tlsCa
  | browserTrustFingerprint
  | browserTrustStore
  | publish
  | name
  | publicHost
deriving DecidableEq, Repr

def ValueOption.text : ValueOption → Bytes
  | .password => ascii "--password"
  | .log => ascii "--log"
  | .database => ascii "--database"
  | .historyLimit => ascii "--history-limit"
  | .tlsCert => ascii "--tls-cert"
  | .tlsKey => ascii "--tls-key"
  | .importBans => ascii "--import-bans"
  | .importIdentities => ascii "--import-identities"
  | .identities => ascii "--identities"
  | .browserTlsCa => ascii "--browser-tls-ca"
  | .tlsCa => ascii "--tls-ca"
  | .browserTrustFingerprint => ascii "--browser-trust-fingerprint"
  | .browserTrustStore => ascii "--browser-trust-store"
  | .publish => ascii "--publish"
  | .name => ascii "--name"
  | .publicHost => ascii "--public-host"

def Flag.ofText (arg : Bytes) : Option Flag :=
  [.noUpnp, .noLog, .logStdout, .allowPlaintext, .requireTls, .browserPlaintext].find?
    fun flag : Flag => flag.text == arg

def ValueOption.ofText (arg : Bytes) : Option ValueOption :=
  [.password, .log, .database, .historyLimit, .tlsCert, .tlsKey, .importBans, .importIdentities,
    .identities, .browserTlsCa, .tlsCa, .browserTrustFingerprint, .browserTrustStore, .publish,
    .name, .publicHost].find? fun option : ValueOption => option.text == arg

/-- The variables of the loop over the arguments. -/
structure ArgumentLoop where
  config : DedicatedServerConfig
  positionalPasswordSet : Bool := false
  positionalLogSet : Bool := false
deriving DecidableEq, Repr

def DedicatedServerConfig.flag (config : DedicatedServerConfig) : Flag → DedicatedServerConfig
  | .noUpnp => { config with enableUpnp := false }
  | .noLog => { config with enableLogging := false }
  | .logStdout => { config with enableLogging := true, logToStdoutOnly := true }
  | .allowPlaintext => { config with tls := { config.tls with enabled := false } }
  | .requireTls => { config with tls := { config.tls with enabled := true } }
  | .browserPlaintext =>
      { config with browserTls := { config.browserTls with enabled := false } }

namespace ArgumentLoop

variable (loop : ArgumentLoop)

def option (value : Bytes) : ValueOption → Except Exit ArgumentLoop
  | .password =>
      .ok { loop with
        config := { loop.config with password := value }
        positionalPasswordSet := true }
  | .log =>
      .ok { loop with
        config := { loop.config with
          logfile := value
          enableLogging := true
          logToStdoutOnly := false }
        positionalLogSet := true }
  | .database => .ok { loop with config := { loop.config with database := value } }
  | .historyLimit =>
      match (stoul value).filter fun limit => 1 ≤ limit ∧ limit ≤ Storage.MAX_HISTORY_PAGE with
      | some limit => .ok { loop with config := { loop.config with historyLimit := limit } }
      | none => .error { code := 1, message := ascii "--history-limit must be between 1 and 500\n" }
  | .tlsCert =>
      .ok { loop with
        config := { loop.config with
          tls := { loop.config.tls with certificatePath := value, enabled := true } } }
  | .tlsKey =>
      .ok { loop with
        config := { loop.config with
          tls := { loop.config.tls with privateKeyPath := value, enabled := true } } }
  | .importBans => .ok { loop with config := { loop.config with bansFile := value } }
  | .importIdentities | .identities =>
      .ok { loop with config := { loop.config with identitiesFile := value } }
  | .browserTlsCa | .tlsCa =>
      .ok { loop with
        config := { loop.config with
          browserTls := { loop.config.browserTls with caPath := value } } }
  | .browserTrustFingerprint =>
      .ok { loop with
        config := { loop.config with
          browserTls := { loop.config.browserTls with expectedFingerprint := value } } }
  | .browserTrustStore =>
      .ok { loop with
        config := { loop.config with
          browserTls := { loop.config.browserTls with trustStorePath := value } } }
  | .publish =>
      match parseBrowserAddress value with
      | some host =>
          .ok { loop with
            config := { loop.config with browserHost := host, publishToBrowser := true } }
      | none => .error { code := 1, message := ascii "Invalid browser address\n", usage := true }
  | .name =>
      let name := sanitizeBrowserField value BROWSER_NAME_MAX_LEN
      .ok { loop with
        config := { loop.config with
          browserName := if name.isEmpty then ascii "chatbox dedicated server" else name } }
  | .publicHost =>
      .ok { loop with
        config := { loop.config with
          browserPublicHost := sanitizeBrowserField value HOST_MAX_LEN } }

/-- An argument that is no option of the configuration. -/
def other (arg : Bytes) : Except Exit ArgumentLoop :=
  if arg = ascii "--help" ∨ arg = ascii "-h" then .error { code := 0, usage := true }
  else if (ascii "--").isPrefixOf arg then
    .error { code := 1, message := ascii "Unknown option: " ++ arg ++ ascii "\n", usage := true }
  else if !loop.positionalPasswordSet then
    .ok { loop with
      config := { loop.config with password := arg }
      positionalPasswordSet := true }
  else if !loop.positionalLogSet then
    .ok { loop with
      config := { loop.config with logfile := arg }
      positionalLogSet := true }
  else
    .error { code := 1, message := ascii "Unknown option: " ++ arg ++ ascii "\n", usage := true }

/-- The loop over the arguments from the third on. -/
def read (loop : ArgumentLoop) : List Bytes → Except Exit ArgumentLoop
  | [] => .ok loop
  | arg :: rest =>
      match Flag.ofText arg with
      | some flag => read { loop with config := loop.config.flag flag } rest
      | none =>
          match ValueOption.ofText arg, rest with
          | some option, value :: rest =>
              match loop.option value option with
              | .ok loop => read loop rest
              | .error exit => .error exit
          | some _, [] =>
              .error { code := 1, message := arg ++ ascii " requires a value\n", usage := true }
          | none, rest =>
              match loop.other arg with
              | .ok loop => read loop rest
              | .error exit => .error exit

end ArgumentLoop

/-- The server that is started, when the database opens and the port is free. -/
def runDedicatedServerConfig (config : DedicatedServerConfig) : Except Exit Chat.Config :=
  if config.tls.enabled &&
      (config.tls.certificatePath.isEmpty || config.tls.privateKeyPath.isEmpty) then
    .error {
      code := 1
      message := ascii "TLS is required by default. Supply --tls-cert and --tls-key, or explicitly use --allow-plaintext.\n" }
  else
    .ok {
      password := config.password
      hasStorage := true
      historyLimit := config.historyLimit }

def runDedicatedServer (defaultTrustStorePath : Bytes) (argv : List Bytes) :
    Except Exit Chat.Config :=
  match argv.drop 2 with
  | [] => .error { code := 1, usage := true }
  | portText :: args =>
      match parsePort portText with
      | none =>
          .error { code := 1, message := ascii "Invalid port number: " ++ portText ++ ascii "\n" }
      | some port => do
          let loop ← ArgumentLoop.read
            { config := { port, browserTls := { trustStorePath := defaultTrustStorePath } } } args
          runDedicatedServerConfig loop.config

/-- A client that sends the password is let in. -/
def Admits (env : Env) (password : Bytes) : Prop :=
  ∃ frame, encodeClientFrame (.authenticate password) = .ok frame ∧
    decodeClientFrame frame = .ok (.authenticate password) ∧ env.checkPassword password = true

section Arguments

namespace ArgumentLoop

variable {loop loop' : ArgumentLoop} {arg value : Bytes} {args : List Bytes}

theorem flag_password (config : DedicatedServerConfig) (flag : Flag) :
    (config.flag flag).password = config.password := by
  cases flag <;> rfl

/-- One option writes the password. -/
theorem option_password {option : ValueOption} (h : loop.option value option = .ok loop') :
    loop'.config.password = loop.config.password ∨ loop'.config.password = value := by
  cases option with
  | password =>
      obtain rfl := Except.ok.inj h
      exact .inr rfl
  | historyLimit =>
      simp only [ArgumentLoop.option] at h
      split at h
      · obtain rfl := Except.ok.inj h
        exact .inl rfl
      · cases h
  | publish =>
      simp only [ArgumentLoop.option] at h
      split at h
      · obtain rfl := Except.ok.inj h
        exact .inl rfl
      · cases h
  | _ =>
      obtain rfl := Except.ok.inj h
      exact .inl rfl

theorem other_password (h : loop.other arg = .ok loop') :
    loop'.config.password = loop.config.password ∨ loop'.config.password = arg := by
  unfold other at h
  split_ifs at h
  · cases h
    exact .inr rfl
  · cases h
    exact .inl rfl

/-- The password is one of the arguments, if it was not there before. -/
theorem read_password (h : loop.read args = .ok loop') :
    loop'.config.password = loop.config.password ∨ loop'.config.password ∈ args := by
  fun_induction read loop args with
  | case1 loop =>
      obtain rfl := Except.ok.inj h
      exact .inl rfl
  | case2 loop arg rest flag _ ih =>
      rw [← flag_password loop.config flag]
      exact (ih h).imp_right (List.mem_cons_of_mem arg)
  | case3 loop arg _ option value rest _ next written ih =>
      obtain kept | mem := ih h
      · obtain kept' | taken := option_password written
        · exact .inl (kept.trans kept')
        · exact .inr (by simp [kept, taken])
      · exact .inr (List.mem_cons_of_mem arg (List.mem_cons_of_mem value mem))
  | case4 | case5 | case7 => cases h
  | case6 loop arg rest _ _ next written ih =>
      obtain kept | mem := ih h
      · obtain kept' | taken := other_password written
        · exact .inl (kept.trans kept')
        · exact .inr (by simp [kept, taken])
      · exact .inr (List.mem_cons_of_mem arg mem)

end ArgumentLoop

variable {store : Bytes} {argv : List Bytes} {config : Chat.Config}

theorem runDedicatedServerConfig_password {options : DedicatedServerConfig}
    (h : runDedicatedServerConfig options = .ok config) : config.password = options.password := by
  unfold runDedicatedServerConfig at h
  split_ifs at h
  obtain rfl := Except.ok.inj h
  rfl

/-- The password is one of the arguments. -/
theorem runDedicatedServer_password (h : runDedicatedServer store argv = .ok config) :
    config.password = [] ∨ config.password ∈ argv := by
  unfold runDedicatedServer at h
  split at h
  · cases h
  · next portText args shape =>
      split at h
      · cases h
      · next port _ =>
          cases outcome : ArgumentLoop.read
              { config := { port, browserTls := { trustStorePath := store } } } args with
          | error exit =>
              rw [outcome] at h
              cases h
          | ok loop =>
              rw [outcome] at h
              rw [runDedicatedServerConfig_password h]
              obtain kept | mem := ArgumentLoop.read_password outcome
              · exact .inl kept
              · refine .inr (List.mem_of_mem_drop (i := 2) ?_)
                rw [shape]
                exact List.mem_cons_of_mem portText mem

/-- The arguments of a server with the given password. -/
def passwordArguments (password : Bytes) : List Bytes :=
  [ascii "chatbox", ascii "--server", ascii "5000", ascii "--allow-plaintext",
    ascii "--password", password]

theorem runDedicatedServer_arguments (store password : Bytes) :
    runDedicatedServer store (passwordArguments password) =
      .ok { password, hasStorage := true } := rfl

theorem passwordArguments_text {password : Bytes} (text : 0 ∉ password) :
    ∀ arg ∈ passwordArguments password, 0 ∉ arg := by
  simp only [passwordArguments, List.mem_cons, List.not_mem_nil, or_false]
  rintro arg (rfl | rfl | rfl | rfl | rfl | rfl)
  all_goals first | exact text | decide

end Arguments

section Password

variable {env : Env} {password : Bytes}

theorem admits_iff : Admits env password ↔ env.config.password = password ∧
    password.length ≤ 63 ∧ ∀ c ∈ password, isCntrl c = false := by
  have payload : serializeClient (.authenticate password) = ascii "AUTH" ++ pipe :: password := rfl
  have fits : (¬ (decide (password.length > 63) || password.any isCntrl) = true) ↔
      password.length ≤ 63 ∧ ∀ c ∈ password, isCntrl c = false := by
    simp
  constructor
  · rintro ⟨frame, encoded, -, checked⟩
    obtain ⟨⟨message, parsed⟩, -⟩ := encodeClientFrame_ok_iff.mp encoded
    rw [payload, parseClient_auth, guard_ok] at parsed
    exact ⟨(eq_of_beq checked).symm, fits.mp parsed.1⟩
  · rintro ⟨configured, short, plain⟩
    have parsed : parseClientMessage (serializeClient (.authenticate password)) =
        .ok (.authenticate password) := by
      rw [payload, parseClient_auth, guard_ok]
      exact ⟨fits.mpr ⟨short, plain⟩, rfl⟩
    have frame : encodeFrame (serializeClient (.authenticate password)) =
        .ok (encodeBlocks (serializeClient (.authenticate password)) ++ [newline]) := by
      refine encodeFrame_ok_iff.mpr ⟨List.cons_ne_nil _ _, ?_, rfl⟩
      have limit : maxPayloadLength = 3069 := rfl
      have word : (ascii "AUTH").length = 4 := rfl
      rw [payload, List.length_append, List.length_cons]
      omega
    refine ⟨_, encodeClientFrame_ok_iff.mpr ⟨⟨_, parsed⟩, frame⟩, ?_, ?_⟩
    · rw [decodeClientFrame, decodeMessageFrame_encodeFrame frame, parsed]
    · exact beq_iff_eq.mpr configured.symm

/-- The command line takes every password, and clients are let in with those that fit into an
AUTH message. -/
theorem configured_admits_iff (store password : Bytes) :
    ((∃ argv config, (∀ arg ∈ argv, 0 ∉ arg) ∧ runDedicatedServer store argv = .ok config ∧
        config.password = password) ↔ 0 ∉ password) ∧
      ∀ argv env, runDedicatedServer store argv = .ok env.config →
        env.config.password = password →
          (Admits env password ↔
            password.length ≤ 63 ∧ ∀ c ∈ password, isCntrl c = false) := by
  refine ⟨⟨?_, fun text => ⟨passwordArguments password, _, passwordArguments_text text,
    runDedicatedServer_arguments store password, rfl⟩⟩, fun argv env _ configured => ?_⟩
  · rintro ⟨argv, config, texts, started, rfl⟩
    obtain empty | mem := runDedicatedServer_password started
    · rw [empty]
      exact List.not_mem_nil
    · exact texts _ mem
  · rw [admits_iff, and_iff_right configured]

/-- A server that is started with the password. -/
def Env.withPassword (password : Bytes) : Env :=
  { Env.plain with config := { password, hasStorage := true } }

theorem configured_admits_short :
    Admits (Env.withPassword (ascii "pass|word")) (ascii "pass|word") :=
  (((configured_admits_iff [] (ascii "pass|word")).2 _ (Env.withPassword (ascii "pass|word"))
    (runDedicatedServer_arguments [] (ascii "pass|word")) rfl).mpr (by decide +kernel))

/-- With a password of 64 letters nobody is let in. -/
theorem configured_long_refused :
    ¬ ∀ store argv env, (∀ arg ∈ argv, 0 ∉ arg) →
      runDedicatedServer store argv = .ok env.config → env.config.password ≠ [] →
        Admits env env.config.password := by
  intro all
  have admits := all [] (passwordArguments (List.replicate 64 97))
    (Env.withPassword (List.replicate 64 97))
    (passwordArguments_text (by decide +kernel))
    (runDedicatedServer_arguments [] (List.replicate 64 97)) (List.cons_ne_nil _ _)
  have short := (admits_iff.mp admits).2.1
  rw [Env.withPassword, List.length_replicate] at short
  omega

end Password

end Chatbox.App
