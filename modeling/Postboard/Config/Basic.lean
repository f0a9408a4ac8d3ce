import Postboard.Json.Record
import Postboard.Text.Blank

/-! The settings of the service: six sections, each with defaults.

`Config.read` takes them from a JSON value and `Config.json` writes them; what is read has then to
pass `Config.check`.
-/

set_option autoImplicit false

namespace Postboard

structure Config.Daemon where
  addr : String
  deriving DecidableEq, Repr

structure Config.Reactive where
  baseUrl : String
  timeoutMs : UInt64
  deriving DecidableEq, Repr

structure Config.Database where
  urlEnv : String
  maxConnections : UInt32
  acquireTimeoutMs : UInt64
  statementTimeoutMs : UInt64
  deriving DecidableEq, Repr

structure Config.Posts where
  defaultLimit : UInt32
  maxLimit : UInt32
  deriving DecidableEq, Repr

structure Config.Principal where
  userId : Int32
  deriving DecidableEq, Repr

structure Config.Streams where
  redirectBase : String
  deriving DecidableEq, Repr

structure Config where
  daemon : Config.Daemon
  reactive : Config.Reactive
  db : Config.Database
  posts : Config.Posts
  principal : Config.Principal
  streams : Config.Streams
  deriving DecidableEq, Repr

namespace Config

open Json Text

def databaseUrlName : String := "HN_DATABASE_URL"

def standard : Config where
  daemon := ⟨"127.0.0.1:8080"⟩
  reactive := ⟨"http://reactive_cache:8081/v1", 5000⟩
  db := ⟨databaseUrlName, 10, 5000, 5000⟩
  posts := ⟨10, 100⟩
  principal := ⟨1⟩
  streams := ⟨"/streams"⟩

/-! ### Reading -/

def daemonRecord : Record Daemon :=
  ⟨"DaemonConfig", [.of "addr" readString fun v _ => ⟨v⟩]⟩

def reactiveRecord : Record Reactive :=
  ⟨"ReactiveConfig",
    [.of "base_url" readString fun v s => { s with baseUrl := v },
     .of "timeout_ms" readUInt64 fun v s => { s with timeoutMs := v }]⟩

def databaseRecord : Record Database :=
  ⟨"DbConfig",
    [.of "url_env" readString fun v s => { s with urlEnv := v },
     .of "max_connections" readUInt32 fun v s => { s with maxConnections := v },
     .of "acquire_timeout_ms" readUInt64 fun v s => { s with acquireTimeoutMs := v },
     .of "statement_timeout_ms" readUInt64 fun v s => { s with statementTimeoutMs := v }]⟩

def postsRecord : Record Posts :=
  ⟨"PostsConfig",
    [.of "default_limit" readUInt32 fun v s => { s with defaultLimit := v },
     .of "max_limit" readUInt32 fun v s => { s with maxLimit := v }]⟩

def principalRecord : Record Principal :=
  ⟨"PrincipalConfig", [.of "user_id" readInt32 fun v _ => ⟨v⟩]⟩

def streamsRecord : Record Streams :=
  ⟨"StreamsConfig", [.of "redirect_prefix" readString fun v _ => ⟨v⟩]⟩

def record : Record Config :=
  ⟨"FacadeConfig",
    [.of "daemon" (daemonRecord.read standard.daemon) fun v c => { c with daemon := v },
     .of "reactive" (reactiveRecord.read standard.reactive) fun v c => { c with reactive := v },
     .of "db" (databaseRecord.read standard.db) fun v c => { c with db := v },
     .of "posts" (postsRecord.read standard.posts) fun v c => { c with posts := v },
     .of "principal" (principalRecord.read standard.principal) fun v c => { c with principal := v },
     .of "streams" (streamsRecord.read standard.streams) fun v c => { c with streams := v }]⟩

/-- Settings from a JSON value, over the standard ones. -/
def read (v : Json) : Except Misfit Config := record.read standard v

/-! ### Writing -/

/-- Settings as a JSON value that names every field. -/
def json (c : Config) : Json :=
  .obj
    [("daemon", .obj [("addr", .str c.daemon.addr)]),
     ("db", .obj
      [("acquire_timeout_ms", .nat c.db.acquireTimeoutMs.toNat),
       ("max_connections", .nat c.db.maxConnections.toNat),
       ("statement_timeout_ms", .nat c.db.statementTimeoutMs.toNat),
       ("url_env", .str c.db.urlEnv)]),
     ("posts", .obj
      [("default_limit", .nat c.posts.defaultLimit.toNat),
       ("max_limit", .nat c.posts.maxLimit.toNat)]),
     ("principal", .obj [("user_id", .int c.principal.userId.toInt)]),
     ("reactive", .obj
      [("base_url", .str c.reactive.baseUrl),
       ("timeout_ms", .nat c.reactive.timeoutMs.toNat)]),
     ("streams", .obj [("redirect_prefix", .str c.streams.redirectBase)])]

/-! ### Checking -/

/-- What the type of a setting does not rule out. -/
inductive Invalid where
  | noLimit
  | defaultLimit (limit max : UInt32)
  | reactiveTimeout
  | databaseTimeouts
  | noUrlName
  | redirectBase (path : String)
  deriving DecidableEq, Repr

def Invalid.message : Invalid → String
  | .noLimit => "CONFIG_INVALID posts.max_limit must be > 0"
  | .defaultLimit limit max =>
    "CONFIG_INVALID posts.default_limit=" ++ Decimal.ofNat limit.toNat ++ " must be in 1..=" ++
      Decimal.ofNat max.toNat
  | .reactiveTimeout => "CONFIG_INVALID reactive.timeout_ms must be > 0"
  | .databaseTimeouts => "CONFIG_INVALID db timeouts must be > 0"
  | .noUrlName => "CONFIG_INVALID db.url_env must name an env var"
  | .redirectBase path =>
    "CONFIG_INVALID streams.redirect_prefix must start with '/', got '" ++ path ++ "'"

def check (c : Config) : Except Invalid Unit :=
  if c.posts.maxLimit = 0 then .error .noLimit
  else if c.posts.defaultLimit = 0 || c.posts.maxLimit < c.posts.defaultLimit then
    .error (.defaultLimit c.posts.defaultLimit c.posts.maxLimit)
  else if c.reactive.timeoutMs = 0 then .error .reactiveTimeout
  else if c.db.statementTimeoutMs = 0 || c.db.acquireTimeoutMs = 0 then .error .databaseTimeouts
  else if isBlankText c.db.urlEnv then .error .noUrlName
  else if c.streams.redirectBase.toList.head? ≠ some '/' then
    .error (.redirectBase c.streams.redirectBase)
  else .ok ()

end Config

end Postboard
