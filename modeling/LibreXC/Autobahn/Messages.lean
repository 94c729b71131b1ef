import LibreXC.Autobahn.FrameBytes
import LibreXC.Autobahn.Session

/-! # Messages from frames

What a sequence of frames carries: whole messages, messages in fragments, and pings and pongs anywhere
between the fragments (**`Carries`**).

* **`Item.received`** — what a side does about a message, a ping or a pong.
* **`Connection.Leads`** — a frame leads from one state to the next, or to an exception of the application.
* **`carries_received`** — a side that is sent such frames hands over the messages and answers the
  pings, in order, and nothing else, until the application raises. -/

namespace LibreXC.Autobahn

open Ascii Python2 Struct Incremental

variable {o : Options}

/-- What one side has to say to the other. -/
inductive Item
  | message (payload : Str) (isBinary : Bool)
  | ping (payload : Str)
  | pong (payload : Str)
  deriving DecidableEq

/-- **What the other side does about it**: a message goes to the application, which may raise, and a ping is
answered. -/
def Item.received (o : Options) : Item → Protocol → Result Protocol
  | .message payload isBinary, p => p.onMessage o payload isBinary
  | .ping payload, p => .returned true (p.sendFrame o 10 payload true 0)
  | .pong _, p => .returned true p

/-- One item after the other, until the application raises. -/
def Protocol.receivedAll (o : Options) : List Item → Protocol → Result Protocol
  | [], p => .returned true p
  | item :: items, p => (item.received o p).andThen (receivedAll o items)

/-- **An item the other side takes**: texts are texts, and the limits are kept. -/
def Item.Fits (o : Options) : Item → Prop
  | .message payload isBinary =>
      (isBinary = false → o.utf8validateIncoming = true → IsText payload) ∧
        (0 < o.maxMessagePayloadSize → payload.length ≤ o.maxMessagePayloadSize)
  | .ping payload => payload.length ≤ 125
  | .pong payload => payload.length ≤ 125

/-- **What frames carry**, when `m` is what has arrived of a message: whether it is binary, and its
bytes so far. -/
inductive Carries : Option (Bool × Str) → List Sent → List Item → Prop
  | nil : Carries none [] []
  | ping {m : Option (Bool × Str)} {fs : List Sent} {items : List Item} (payload : Str) (mask : Option Mask) :
      Carries m fs items → Carries m (⟨9, payload, true, mask⟩ :: fs) (.ping payload :: items)
  | pong {m : Option (Bool × Str)} {fs : List Sent} {items : List Item} (payload : Str) (mask : Option Mask) :
      Carries m fs items → Carries m (⟨10, payload, true, mask⟩ :: fs) (.pong payload :: items)
  | whole {fs : List Sent} {items : List Item} (payload : Str) (isBinary : Bool) (mask : Option Mask) :
      Carries none fs items →
        Carries none (⟨if isBinary then 2 else 1, payload, true, mask⟩ :: fs) (.message payload isBinary :: items)
  | first {fs : List Sent} {items : List Item} (payload : Str) (isBinary : Bool) (mask : Option Mask) :
      Carries (some (isBinary, payload)) fs items →
        Carries none (⟨if isBinary then 2 else 1, payload, false, mask⟩ :: fs) items
  | next {fs : List Sent} {items : List Item} (sofar payload : Str) (isBinary : Bool) (mask : Option Mask) :
      Carries (some (isBinary, sofar ++ payload)) fs items →
        Carries (some (isBinary, sofar)) (⟨0, payload, false, mask⟩ :: fs) items
  | last {fs : List Sent} {items : List Item} (sofar payload : Str) (isBinary : Bool) (mask : Option Mask) :
      Carries none fs items →
        Carries (some (isBinary, sofar)) (⟨0, payload, true, mask⟩ :: fs)
          (.message (sofar ++ payload) isBinary :: items)

/-- A message that is being carried is the beginning of one that fits. -/
theorem Carries.fits {isBinary : Bool} {sofar : Str} {fs : List Sent} {items : List Item}
    (h : Carries (some (isBinary, sofar)) fs items) (hfits : ∀ item ∈ items, item.Fits o) :
    ∃ rest, Item.Fits o (.message (sofar ++ rest) isBinary) := by
  generalize hm : some (isBinary, sofar) = m at h
  induction h generalizing sofar with
  | nil => cases hm
  | ping payload mask h ih => exact ih (fun item hitem => hfits item (List.mem_cons_of_mem _ hitem)) hm
  | pong payload mask h ih => exact ih (fun item hitem => hfits item (List.mem_cons_of_mem _ hitem)) hm
  | whole => cases hm
  | first => cases hm
  | next sofar' payload isBinary' mask h ih =>
      obtain ⟨rfl, rfl⟩ := Prod.mk.inj (Option.some.inj hm)
      obtain ⟨rest, hrest⟩ := ih hfits rfl
      exact ⟨payload ++ rest, by rwa [← List.append_assoc]⟩
  | last sofar' payload isBinary' mask h ih =>
      obtain ⟨rfl, rfl⟩ := Prod.mk.inj (Option.some.inj hm)
      exact ⟨payload, hfits _ List.mem_cons_self⟩

/-- So it begins like a text and keeps the limit. -/
theorem Carries.begins {isBinary : Bool} {sofar : Str} {fs : List Sent} {items : List Item}
    (h : Carries (some (isBinary, sofar)) fs items) (hfits : ∀ item ∈ items, item.Fits o) :
    (isBinary = false → o.utf8validateIncoming = true → Begins sofar) ∧
      (0 < o.maxMessagePayloadSize → sofar.length ≤ o.maxMessagePayloadSize) := by
  obtain ⟨rest, htext, hlimit⟩ := h.fits hfits
  refine ⟨fun hb hv => (htext hb hv).begins.of_append, fun hmax => le_trans ?_ (hlimit hmax)⟩
  rw [List.length_append]
  exact Nat.le_add_right _ _

/-! ## The checks -/

namespace Sent

variable {f : Sent}

end Sent

/-! ## Receiving a frame -/

/-- A side that waits for a frame, with `m` of a message. -/
structure Connection.At (m : Option (Bool × Str)) (c : Connection) : Prop where
  between : c.current_frame = none
  opened : c.protocol.state = .OPEN
  outside : m = none → c.protocol.incoming.inside_message = false
  inside : ∀ isBinary sofar, m = some (isBinary, sofar) → c.protocol.incoming.inside_message = true ∧
    c.protocol.incoming.message_is_binary = isBinary ∧ c.protocol.incoming.message_data = some sofar ∧
      c.protocol.incoming.message_data_total_length = sofar.length

/-- The message with the payload of a control frame. -/
def Incoming.control (payload : Option Str) (m : Incoming) : Incoming := { m with control_frame_data := payload }

/-- The message with a frame of the given length begun. -/
def Incoming.opened (length : ℕ) (m : Incoming) : Incoming :=
  { m with frame_data := some [], message_data_total_length := m.message_data_total_length + length }

/-- The message into which a data frame comes: the current one, or a new one. -/
def Sent.message (o : Options) (f : Sent) (m : Incoming) : Incoming :=
  if m.inside_message = false then Protocol.beginMessage o f.frameHeader m else m

/-- Two instances do the same from now on, but for the message in them. -/
def Protocol.Alike (p q : Protocol) : Prop := p.forget = q.forget

namespace Protocol

variable {p q : Protocol}

theorem Alike.exists_receiving (h : p.Alike q) : ∃ m, q = p.receiving m := by
  have hreceiving := congrArg (receiving q.incoming) h.symm
  exact ⟨q.incoming, hreceiving⟩

theorem alike_receiving (m : Incoming) (p : Protocol) : p.Alike (p.receiving m) := rfl

/-! ### What is sent does not depend on the message -/

theorem sendFrame_receiving (opcode : ℕ) (payload : Str) (fin : Bool) (rsv : ℕ) (m : Incoming) (p : Protocol) :
    (p.receiving m).sendFrame o opcode payload fin rsv = (p.sendFrame o opcode payload fin rsv).receiving m := by
  unfold sendFrame sendData
  split <;> rfl

theorem sendFrames_receiving (fs : List (ℕ × Str × Bool)) (m : Incoming) (p : Protocol) :
    (p.receiving m).sendFrames o fs = (p.sendFrames o fs).receiving m := by
  unfold sendFrames
  induction fs generalizing p with
  | nil => rfl
  | cons f fs ih =>
      rw [List.foldl_cons, List.foldl_cons, sendFrame_receiving]
      exact ih _

theorem broadcast_receiving (texts : List Str) (m : Incoming) (p : Protocol) :
    (p.receiving m).broadcast o texts = (p.broadcast o texts).receiving m := by
  by_cases hopen : p.state = .OPEN
  · obtain ⟨fs, -, hsend⟩ := broadcast_frames o texts
    rw [hsend p hopen, hsend (p.receiving m) hopen, sendFrames_receiving]
  · rw [broadcast_not_open hopen, broadcast_not_open (p := p.receiving m) hopen]

theorem onMessage_receiving (payload : Str) (isBinary : Bool) (m : Incoming) (p : Protocol) :
    (p.receiving m).onMessage o payload isBinary = (p.onMessage o payload isBinary).map (receiving m) := by
  have hsent := broadcast_receiving (o := o) (o.broadcasts (p.effects ++ [Effect.onMessage payload isBinary])).1 m
    { p with effects := p.effects ++ [Effect.onMessage payload isBinary] }
  unfold onMessage
  dsimp only
  rw [show (p.receiving m).effects = p.effects from rfl]
  cases (o.broadcasts (p.effects ++ [Effect.onMessage payload isBinary])).2 with
  | none => exact congrArg (Result.returned true) hsent
  | some e => exact congrArg (Result.raised e) hsent

/-- The application returns, or raises. -/
theorem onMessage_cases (o : Options) (payload : Str) (isBinary : Bool) (p : Protocol) :
    p.onMessage o payload isBinary = .returned true (p.handed o payload isBinary) ∨
      ∃ e, p.onMessage o payload isBinary = .raised e (p.handed o payload isBinary) := by
  unfold onMessage
  dsimp only
  cases (o.broadcasts (p.effects ++ [Effect.onMessage payload isBinary])).2 with
  | none => exact .inl rfl
  | some e => exact .inr ⟨e, rfl⟩

theorem Alike.sendFrame (h : p.Alike q) (opcode : ℕ) (payload : Str) (fin : Bool) (rsv : ℕ) :
    (p.sendFrame o opcode payload fin rsv).Alike (q.sendFrame o opcode payload fin rsv) := by
  obtain ⟨m, rfl⟩ := h.exists_receiving
  rw [sendFrame_receiving]
  exact alike_receiving m _

/-- What has been received before does not matter to what is done next. -/
theorem Alike.received (h : p.Alike q) (item : Item) :
    (item.received o p).map forget = (item.received o q).map forget := by
  cases item with
  | message payload isBinary =>
      obtain ⟨m, rfl⟩ := h.exists_receiving
      rw [Item.received, Item.received, onMessage_receiving]
      cases p.onMessage o payload isBinary <;> rfl
  | ping payload => exact congrArg (Result.returned true) (h.sendFrame 10 payload true 0)
  | pong payload => exact congrArg (Result.returned true) h

/-- Going on from results that are alike. -/
theorem forget_andThen {a b : Result Protocol} {next : Protocol → Result Protocol}
    (hab : a.map forget = b.map forget)
    (hnext : ∀ p q : Protocol, p.Alike q → (next p).map forget = (next q).map forget) :
    (a.andThen next).map forget = (b.andThen next).map forget := by
  cases a with
  | returned more p =>
      cases b with
      | returned more' q =>
          obtain ⟨rfl, hpq⟩ := Result.returned.inj hab
          cases more with
          | true => exact hnext p q hpq
          | false => exact hab
      | raised e q => cases hab
  | raised e p =>
      cases b with
      | returned more q => cases hab
      | raised e' q => exact hab

theorem Alike.receivedAll (h : p.Alike q) (items : List Item) :
    (p.receivedAll o items).map forget = (q.receivedAll o items).map forget := by
  induction items generalizing p q with
  | nil => exact congrArg (Result.returned true) h
  | cons item items ih => exact forget_andThen (h.received item) fun p q hpq => ih hpq

/-! ### Control frames -/

variable {m : Incoming} {md fd : Str} {header : FrameHeader}

end Protocol

/-! ### Frames -/

/-- The frame belongs to a message of which `sofar` has arrived: a new one, or the current one. -/
def Sent.Into (f : Sent) (m : Option (Bool × Str)) (isBinary : Bool) (sofar : Str) : Prop :=
  m = none ∧ f.opcode = (if isBinary then 2 else 1) ∧ sofar = [] ∨ m = some (isBinary, sofar) ∧ f.opcode = 0

theorem Sent.Into.data {f : Sent} {m : Option (Bool × Str)} {isBinary : Bool} {sofar : Str}
    (h : f.Into m isBinary sofar) : ¬ 7 < f.frameHeader.opcode := by
  dsimp only [Sent.frameHeader]
  rcases h with ⟨-, h, -⟩ | ⟨-, h⟩
  · rw [h]
    cases isBinary <;> decide
  · rw [h]
    decide

namespace Connection

variable {c : Connection} {m : Option (Bool × Str)} {f : Sent} {isBinary : Bool} {sofar : Str}

/-- The frame is one of those that are expected. -/
theorem At.expected (hat : c.At m) (hinto : f.Into m isBinary sofar) :
    f.opcode = 0 ∧ c.protocol.incoming.inside_message = true ∨
      (f.opcode = 1 ∨ f.opcode = 2) ∧ c.protocol.incoming.inside_message = false := by
  rcases hinto with ⟨hm, hopcode, -⟩ | ⟨hm, hopcode⟩
  · refine .inr ⟨?_, hat.outside hm⟩
    rw [hopcode]
    cases isBinary
    · exact .inl rfl
    · exact .inr rfl
  · exact .inl ⟨hopcode, (hat.inside isBinary sofar hm).1⟩

/-- **A frame leads on**: to a side that waits for the next one in the state `p`, up to its message; or it
leads to an exception of the application. -/
def Leads (o : Options) (c : Connection) (m : Option (Bool × Str)) (rest : Str) : Result Protocol → Prop
  | .returned more p => more = true ∧ ∃ c' : Connection, c'.Reading o ∧ c'.At m ∧ c'.data = rest ∧
      p.Alike c'.protocol ∧ ∀ r, Consumes (step o) c' r → Consumes (step o) c r
  | .raised e p => Consumes (step o) c (.halted (some e, p.forget))

/-- A side that has received everything it was sent, and waits in the state `p` up to its message; or its
application has raised. -/
def Ends (o : Options) (c : Connection) : Result Protocol → Prop
  | .returned more p => more = true ∧ ∃ c' : Connection, Consumes (step o) c (.waiting c') ∧ c'.At none ∧
      c'.data = [] ∧ p.Alike c'.protocol
  | .raised e p => Consumes (step o) c (.halted (some e, p.forget))

theorem Ends.congr {r r' : Result Protocol} (hr : r.map Protocol.forget = r'.map Protocol.forget)
    (h : c.Ends o r) : c.Ends o r' := by
  cases r with
  | returned more p =>
      cases r' with
      | returned more' p' =>
          obtain ⟨rfl, hp⟩ := Result.returned.inj hr
          obtain ⟨hmore, c', hconsumes, hat, hdata, halike⟩ := h
          exact ⟨hmore, c', hconsumes, hat, hdata, hp.symm.trans halike⟩
      | raised e' p' => cases hr
  | raised e p =>
      cases r' with
      | returned more' p' => cases hr
      | raised e' p' =>
          obtain ⟨rfl, hp⟩ := Result.raised.inj hr
          have hconsumes : Consumes (step o) c (.halted (some e, p.forget)) := h
          rwa [hp] at hconsumes

theorem Ends.of_steps {c' : Connection} {r : Result Protocol} (h : c'.Ends o r)
    (hsteps : ∀ r, Consumes (step o) c' r → Consumes (step o) c r) : c.Ends o r := by
  cases r with
  | returned more p =>
      obtain ⟨hmore, c'', hconsumes, hat, hdata, halike⟩ := h
      exact ⟨hmore, c'', hsteps _ hconsumes, hat, hdata, halike⟩
  | raised e p => exact hsteps _ h

/-- A frame, and then the others. -/
theorem Leads.ends {rest : Str} {r : Result Protocol} {items : List Item} (h : c.Leads o m rest r)
    (hrest : ∀ c' : Connection, c'.Reading o → c'.At m → c'.data = rest →
      c'.Ends o (c'.protocol.receivedAll o items)) :
    c.Ends o (r.andThen (Protocol.receivedAll o items)) := by
  cases r with
  | returned more p =>
      obtain ⟨rfl, c', hreading, hat, hdata, halike, hsteps⟩ := h
      have hends := (hrest c' hreading hat hdata).congr (halike.receivedAll items).symm
      exact hends.of_steps hsteps
  | raised e p => exact h

end Connection

/-- The mask of a frame when `k` masks have been drawn. -/
def Options.maskOf (o : Options) (k : ℕ) : Option Mask :=
  if (!o.isServer && o.maskClientFrames) || (o.isServer && o.maskServerFrames) then some (o.random k) else none

/-- The writes of a sender. -/
def written (applyMask : Bool) (fs : List Sent) : List Effect := fs.map fun f => .write (f.bytes applyMask)

namespace Protocol

theorem effects_sendFrame (opcode : ℕ) (payload : Str) (fin : Bool) (p : Protocol) :
    (p.sendFrame o opcode payload fin 0).effects
      = p.effects ++ written o.applyMask [⟨opcode, payload, fin, o.maskOf p.drawn⟩] := by
  unfold sendFrame Options.maskOf sendData
  split <;> rfl

end Protocol

/-- The messages among the effects: what has been handed to the application. -/
def handedOver (effects : List Effect) : List (Str × Bool) :=
  effects.filterMap fun
    | .onMessage payload isBinary => some (payload, isBinary)
    | _ => none

/-- The message in an item, if it is one. -/
def Item.message? : Item → Option (Str × Bool)
  | .message payload isBinary => some (payload, isBinary)
  | .ping _ => none
  | .pong _ => none

theorem handedOver_append (effects effects' : List Effect) :
    handedOver (effects ++ effects') = handedOver effects ++ handedOver effects' := List.filterMap_append

theorem handedOver_sendFrame (opcode : ℕ) (payload : Str) (fin : Bool) (p : Protocol) :
    handedOver (p.sendFrame o opcode payload fin 0).effects = handedOver p.effects := by
  rw [Protocol.effects_sendFrame, handedOver_append]
  exact List.append_nil _

theorem handedOver_broadcast (texts : List Str) (p : Protocol) :
    handedOver (p.broadcast o texts).effects = handedOver p.effects := by
  obtain ⟨fs, -, -, heq⟩ := Protocol.exists_broadcast o texts p
  rw [heq, Protocol.sendFrames]
  clear heq
  induction fs generalizing p with
  | nil => rfl
  | cons f fs ih => exact (ih _).trans (handedOver_sendFrame ..)

theorem handedOver_handed (payload : Str) (isBinary : Bool) (p : Protocol) :
    handedOver (p.handed o payload isBinary).effects = handedOver p.effects ++ [(payload, isBinary)] := by
  rw [Protocol.handed, handedOver_broadcast, handedOver_append]
  rfl

/-- **What is handed over is what was sent**: an answer of the application is no message to it. -/
theorem handedOver_received {items : List Item} {more : Bool} {p q : Protocol}
    (h : p.receivedAll o items = .returned more q) :
    handedOver q.effects = handedOver p.effects ++ items.filterMap Item.message? := by
  induction items generalizing p with
  | nil =>
      obtain ⟨-, rfl⟩ := Result.returned.inj h
      exact (List.append_nil _).symm
  | cons item items ih =>
      rw [Protocol.receivedAll] at h
      cases item with
      | message payload isBinary =>
          rw [Item.received] at h
          rcases Protocol.onMessage_cases o payload isBinary p with hmessage | ⟨e, hmessage⟩
          · rw [hmessage] at h
            rw [ih h, handedOver_handed, List.append_assoc]
            rfl
          · rw [hmessage] at h
            cases h
      | ping payload =>
          rw [ih h, handedOver_sendFrame]
          rfl
      | pong payload => exact ih h

/-- Where the application raises, everything before has been received. -/
theorem exists_raising {items : List Item} {e : Exc} {p q : Protocol}
    (h : p.receivedAll o items = .raised e q) : ∃ before payload isBinary after p',
      items = before ++ .message payload isBinary :: after ∧ p.receivedAll o before = .returned true p' ∧
        p'.onMessage o payload isBinary = .raised e q := by
  induction items generalizing p with
  | nil => cases h
  | cons item items ih =>
      rw [Protocol.receivedAll] at h
      -- an item that was received comes before the message
      have hlater : ∀ p₁, item.received o p = .returned true p₁ → p₁.receivedAll o items = .raised e q →
          ∃ before payload isBinary after p', item :: items = before ++ .message payload isBinary :: after ∧
            p.receivedAll o before = .returned true p' ∧ p'.onMessage o payload isBinary = .raised e q := by
        intro p₁ hitem hrest
        obtain ⟨before, payload, isBinary, after, p', rfl, hbefore, hraised⟩ := ih hrest
        exact ⟨item :: before, payload, isBinary, after, p', rfl, by rw [Protocol.receivedAll, hitem]; exact hbefore,
          hraised⟩
      cases item with
      | message payload isBinary =>
          rcases Protocol.onMessage_cases o payload isBinary p with hmessage | ⟨e', hmessage⟩
          · rw [Item.received, hmessage] at h
            exact hlater _ hmessage h
          · rw [Item.received, hmessage] at h
            exact ⟨[], payload, isBinary, items, p, rfl, rfl, hmessage.trans h⟩
      | ping payload => exact hlater _ rfl h
      | pong payload => exact hlater _ rfl h

/-- **What becomes of the items** a side is sent: it has received all of them and waits for more, or its
application has raised for one of the messages, and it has received everything up to that one. -/
def Delivered (o : Options) (items : List Item) : Result Connection → Prop
  | .returned _ c => c.protocol.state = .OPEN ∧ c.data = [] ∧
      (∃ p, Protocol.start.receivedAll o items = .returned true p ∧ c.protocol.effects = p.effects) ∧
      handedOver c.protocol.effects = items.filterMap Item.message?
  | .raised e c => ∃ before payload isBinary after p q, items = before ++ .message payload isBinary :: after ∧
      Protocol.start.receivedAll o before = .returned true p ∧ p.onMessage o payload isBinary = .raised e q ∧
      c.protocol.effects = q.effects ∧
      handedOver c.protocol.effects = before.filterMap Item.message? ++ [(payload, isBinary)]

/-- How the loop ends says what has become of the items. -/
theorem Connection.Ends.delivered {items : List Item} {c : Connection}
    (hends : c.Ends o (Protocol.start.receivedAll o items)) {r : Result Connection}
    (hconsumes : Consumes (step o) c (outcome r)) : Delivered o items r := by
  cases hreceived : Protocol.start.receivedAll o items with
  | returned more p =>
      rw [hreceived] at hends
      obtain ⟨rfl, c', hwaits, hat, hdata, halike⟩ := hends
      have houtcome := hconsumes.unique hwaits
      cases r with
      | raised e c'' => cases houtcome
      | returned more c'' =>
          rw [outcome] at houtcome
          split_ifs at houtcome
          obtain rfl := Outcome.waiting.inj houtcome
          have heffects : c''.protocol.effects = p.effects := (congrArg Protocol.effects halike).symm
          exact ⟨hat.opened, hdata, ⟨p, hreceived, heffects⟩, (congrArg handedOver heffects).trans
            (handedOver_received hreceived)⟩
  | raised e p =>
      rw [hreceived] at hends
      have houtcome := hconsumes.unique hends
      cases r with
      | returned more c' =>
          rw [outcome] at houtcome
          split_ifs at houtcome
          cases houtcome
      | raised e' c' =>
          obtain ⟨he, hforget⟩ := Prod.mk.inj (Outcome.halted.inj houtcome)
          obtain rfl := Option.some.inj he
          obtain ⟨before, payload, isBinary, after, p', hitems, hbefore, hraised⟩ := exists_raising hreceived
          have heffects : c'.protocol.forget.effects = p.forget.effects := congrArg Protocol.effects hforget
          have heffects : c'.protocol.effects = p.effects := heffects
          -- the application was handed the message before it raised
          have hhanded : p = p'.handed o payload isBinary := by
            rcases Protocol.onMessage_cases o payload isBinary p' with h | ⟨e'', h⟩
            · rw [h] at hraised
              cases hraised
            · exact (Result.raised.inj (h.symm.trans hraised)).2.symm
          refine ⟨before, payload, isBinary, after, p', p, hitems, hbefore, hraised, heffects, ?_⟩
          rw [heffects, hhanded, handedOver_handed]
          exact congrArg (· ++ [(payload, isBinary)]) (handedOver_received hbefore)

end LibreXC.Autobahn
