import Postboard.Assoc
import Postboard.Json.Struct
import Postboard.Post.Draft

/-! Drafts read from JSON texts.

A draft is an object with `title`, `body` and optionally `url`, or a list of the three in the order
title, url, body.
-/

set_option autoImplicit false

namespace Postboard.Post

open Json

/-- A field of a draft. The texts that have been read are kept by field. -/
def textField (name : String) : TextField (List (String × String)) :=
  .of name stringValue fun text found => (name, text) :: found

def Draft.ofTexts (found : List (String × String)) : Except Misfit Draft :=
  match Assoc.find? "title" found, Assoc.find? "body" found with
  | none, _ => .error (.missing "title")
  | _, none => .error (.missing "body")
  | some title, some body => .ok ⟨title, (Assoc.find? "url" found).getD "", body⟩

/-- The structure of drafts that messages call `type`. A list that ends after the title lacks the
body only. -/
def Draft.struct (type : String) : Struct (List (String × String)) Draft where
  name := type
  fields := [textField "title", { textField "url" with optional := true }, textField "body"]
  start := []
  whole := Draft.ofTexts

def newPost : String := "struct NewPost"

def postFields : String := "struct PostFields"

def Draft.parse (type : String) (input : List UInt8) : Except Fault Draft :=
  (Draft.struct type).parse input

end Postboard.Post
