import FeedFilter.Flat.Basic
import FeedFilter.Json.Form

namespace FeedFilter.Flat

def form : Form := [("author", .text), ("type", .nullable), ("private", .flag)]

def ofValues : List Json → Option Flat
  | [.str author, .null, .bool isPrivate] => some ⟨author, none, isPrivate⟩
  | [.str author, .str type, .bool isPrivate] => some ⟨author, some type, isPrivate⟩
  | _ => none

def ofOutline (levels : Nat) (outline : Outline) : Except Fault Flat := do
  let values ← form.read "a flat query" levels outline
  match ofValues values with
  | some flat => .ok flat
  | none => .error (outline.mismatch "a flat query")

-- Reads a query back from its record, whether or not its parts go together.
def decode (text : String) : Except Complaint Flat :=
  Json.decode (ofOutline Json.nestingLimit) text

end FeedFilter.Flat
