import LibreXC.Linuino.Logger

/-! # The state the daemon's handlers act on

Handlers of the WebSocket thread run one after the other in the reactor. What they read and write is
a **`World`**: the subscriber list of the factory, the log directory, the serial device and the
`sendMessage` calls made so far. A handler is a **`Py`** computation on it; an exception leaves the
effects made before it in place, as in Python.

`to_bytes` and `serialWrite` are the parts of the vendored `serial` package the request path uses. -/

namespace LibreXC.Linuino

open Ascii Python2

/-- **The state of the daemon** as its handlers see it. -/
structure World (Client : Type) where
  /-- `LibreSocketFactory.subscribers`. -/
  subscribers : List Client
  /-- The directory `Config.get_log_path()`. -/
  logs : Directory
  /-- Whether `serial.Serial(port=...)` can open the configured device. -/
  ttyOpens : Bool
  /-- The bytes written to the serial device so far. -/
  tty : Str
  /-- The `sendMessage` calls so far: receiving connection and payload. -/
  sent : List (Client × Str)

/-- A computation of the daemon: it acts on the world and may raise. -/
abbrev Py (Client : Type) := EStateM Exc (World Client)

namespace Py

variable {Client α β : Type}

/-- A pure computation that may raise. -/
def lift : Except Exc α → Py Client α
  | .ok a => pure a
  | .error e => throw e

@[simp] theorem lift_ok (a : α) (w : World Client) : lift (.ok a) w = .ok a w := rfl

@[simp] theorem lift_error (e : Exc) (w : World Client) :
    (lift (.error e) : Py Client α) w = .error e w := rfl

/-- A computation that returns hands its result and its world on. -/
theorem bind_of_ok {m : Py Client α} {f : α → Py Client β} {w w' : World Client} {a : α}
    (h : m w = .ok a w') : (m >>= f) w = f a w' := by
  simp only [bind, EStateM.bind, h]

/-- A computation that raises ends the whole. -/
theorem bind_of_error {m : Py Client α} {f : α → Py Client β} {w w' : World Client} {e : Exc}
    (h : m w = .error e w') : (m >>= f) w = .error e w' := by
  simp only [bind, EStateM.bind, h]

/-- A `try` body that returns passes its `except` by. -/
theorem tryCatch_of_ok {m : Py Client α} {handler : Exc → Py Client α} {w w' : World Client} {a : α}
    (h : m w = .ok a w') : (tryCatch m handler) w = .ok a w' := by
  simp only [tryCatch, tryCatchThe, MonadExceptOf.tryCatch, EStateM.tryCatch, h]

/-- A `try` body that raises leaves its world to the `except`. -/
theorem tryCatch_of_error {m : Py Client α} {handler : Exc → Py Client α} {w w' : World Client}
    {e : Exc} (h : m w = .error e w') : (tryCatch m handler) w = handler e w' := by
  simp only [tryCatch, tryCatchThe, MonadExceptOf.tryCatch, EStateM.tryCatch, h]
  rfl

/-- The world a computation leaves behind, whether it returns or raises. -/
def exec (m : Py Client α) (w : World Client) : World Client :=
  match m w with
  | .ok _ w' => w'
  | .error _ w' => w'

theorem exec_of_ok {m : Py Client α} {w w' : World Client} {a : α} (h : m w = .ok a w') :
    exec m w = w' := by
  rw [exec, h]

theorem exec_of_error {m : Py Client α} {w w' : World Client} {e : Exc} (h : m w = .error e w') :
    exec m w = w' := by
  rw [exec, h]

/-- The world after a computation that goes on after `m` returned. -/
theorem exec_bind_of_ok {m : Py Client α} {f : α → Py Client β} {w w' : World Client} {a : α}
    (h : m w = .ok a w') : exec (m >>= f) w = exec (f a) w' := by
  rw [exec, bind_of_ok h, exec]

end Py

/-! ## The serial device -/

/-- One item of `to_bytes`: `bytearray.append` raises outside `range(0, 256)`. -/
def byteOf (item : ℤ) : Except Exc UInt8 :=
  if 0 ≤ item ∧ item < 256 then .ok (UInt8.ofNat item.toNat)
  else .error (.valueError (str "byte must be in range(0, 256)"))

/-- `serialutil.to_bytes(seq)` on a list of integers. -/
def to_bytes (seq : List ℤ) : Except Exc Str := seq.mapM byteOf

/-- A byte goes through `byteOf` unchanged. -/
@[simp] theorem byteOf_toNat (b : UInt8) : byteOf (b.toNat : ℤ) = .ok b := by
  have hb := b.toNat_lt
  rw [byteOf, if_pos (by omega), Int.toNat_natCast, UInt8.ofNat_toNat]

/-- Outside the byte range `byteOf` raises. -/
theorem byteOf_of_not_mem {item : ℤ} (h : ¬ (0 ≤ item ∧ item < 256)) :
    ∃ e, byteOf item = .error e := by
  rw [byteOf, if_neg h]
  exact ⟨_, rfl⟩

variable {Client : Type}

/-- `serial.Serial(port=Config.get_tty_port(), baudrate=57600)`, as far as it may raise. -/
def serialOpen : Py Client Unit := do
  unless (← get).ttyOpens do
    throw (.ioError (str "could not open port"))

/-- `tty.write(message)`: all bytes of the message or, when one is out of range, none. -/
def serialWrite (message : List ℤ) : Py Client Unit := do
  let d ← Py.lift (to_bytes message)
  modify fun w => { w with tty := w.tty ++ d }

theorem serialOpen_of_opens {w : World Client} (h : w.ttyOpens = true) : serialOpen w = .ok () w := by
  have hget : (get : Py Client _) w = .ok w w := rfl
  rw [serialOpen, Py.bind_of_ok hget, h]
  rfl

theorem serialOpen_of_not_opens {w : World Client} (h : w.ttyOpens = false) :
    ∃ e, serialOpen w = .error e w := by
  have hget : (get : Py Client _) w = .ok w w := rfl
  rw [serialOpen, Py.bind_of_ok hget, h]
  exact ⟨_, rfl⟩

theorem serialWrite_of_ok {message : List ℤ} {d : Str} (h : to_bytes message = .ok d)
    (w : World Client) : serialWrite message w = .ok () { w with tty := w.tty ++ d } := by
  rw [serialWrite, h]
  rfl

theorem serialWrite_of_error {message : List ℤ} {e : Exc} (h : to_bytes message = .error e)
    (w : World Client) : serialWrite message w = .error e w := by
  rw [serialWrite, h]
  rfl

/-- `subscriber.sendMessage(payload)`. -/
def sendMessage (subscriber : Client) (payload : Str) : Py Client Unit :=
  modify fun w => { w with sent := w.sent ++ [(subscriber, payload)] }

end LibreXC.Linuino
