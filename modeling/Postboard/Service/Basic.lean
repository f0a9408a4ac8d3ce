import Postboard.Config.Basic
import Postboard.Post.Gateway
import Postboard.Reactive.Client

/-! What the service is made of: a backend for reads, a gateway for mutations, and a few
settings. -/

set_option autoImplicit false

namespace Postboard

structure Service (σ ε : Type) where
  client : Reactive.Client σ
  gateway : Post.Gateway σ ε
  principal : Int32
  defaultLimit : UInt32
  maxLimit : UInt32
  redirectBase : String

namespace Service

variable {σ ε : Type}

def name : String := "hn-daemon"

def version : String := "0.1.0"

def withoutSlashes (path : String) : String :=
  String.ofList (Text.dropWhileEnd (· = '/') path.toList)

def ofConfig (client : Reactive.Client σ) (gateway : Post.Gateway σ ε) (principal : Int32)
    (c : Config) : Service σ ε where
  client := client
  gateway := gateway
  principal := principal
  defaultLimit := c.posts.defaultLimit
  maxLimit := c.posts.maxLimit
  redirectBase := withoutSlashes c.streams.redirectBase

def streamLocation (s : Service σ ε) (handle : String) : String :=
  s.redirectBase ++ "/" ++ handle

end Service

end Postboard
