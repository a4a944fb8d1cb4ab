import LayeredCache.Far.Request
import LayeredCache.Text.Utf8

/-!
# Replies of a key-value server

A server replies to a command by one of a few kinds of values. Each kind of request reads the reply
in its own way, and a reply that it cannot read is a refusal.

## Main definitions

* `KeyValue.Reply` — the replies.
* `KeyValue.Reply.read?` — a reply as the reply to a request of the far tier.
-/

set_option autoImplicit false

namespace LayeredCache.KeyValue

/-- A reply to a command. -/
inductive Reply where
  /-- A short text. -/
  | status (text : String)
  /-- The command failed. -/
  | error (text : String)
  | integer (i : Int)
  | bulk (data : Bytes)
  /-- There is no value. -/
  | nil
  deriving DecidableEq, Repr

namespace Reply

/-- A reply as text; a number is its decimal text. -/
def text? : Reply → Option String
  | .status t => some t
  | .integer i => some (toString i)
  | .bulk bs => Utf8.text? bs
  | .error _ => none
  | .nil => none

/-- Whether a reply is a count, or the text of one. -/
def isCount : Reply → Bool
  | .integer _ => true
  | r => (r.text?.bind (Text.natural? 64)).isSome

/-- How a reply reads as the reply to a request. A write that was not applied, and a key that is not
there, have no value. -/
def read (reply : Reply) : (r : Far.Request) → Far.Answer r
  | .write _ _ _ _ =>
    match reply, reply.text? with
    | .nil, _ => .reply false
    | _, some _ => .reply true
    | _, none => .failure .farRefused
  | .get _ =>
    match reply with
    | .bulk data => .reply data
    | .nil => .failure .missing
    | _ => .failure .farRefused
  | .delete _ => if reply.isCount then .reply () else .failure .farRefused
  | .ping => if reply.text?.isSome then .reply () else .failure .farRefused

end Reply

end LayeredCache.KeyValue
