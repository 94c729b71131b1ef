import LibreXC.Arduino.Receiver
import LibreXC.Linuino.Commands

/-! # Frames on the serial line

A **`Frame`** is what `request_cmd` puts on the line for a command byte between 1 and 7 and a
parameter byte. This file computes its nine bytes and how the receiver of the sketch reads them. -/

namespace LibreXC.SerialLink

open Arduino Ascii Linuino Python2 Transducer

/-- A command byte with a handler, and a parameter byte. -/
structure Frame where
  cmd : BYTE
  param : BYTE
  one_le : 1 ≤ cmd
  le_seven : cmd ≤ 7

namespace Frame

/-- The payload the frame carries. -/
def payload (f : Frame) : Payload := ⟨f.cmd, f.param⟩

/-- **The bytes on the line**: what `request_cmd` writes for the command byte and the parameter. -/
def bytes (f : Frame) : List BYTE := requestBytes f.cmd.toNat f.param.toNat

end Frame

/-- Python's `^` on two bytes is the xor of the bytes. -/
theorem xor_toNat (c p : BYTE) : Int.xor c.toNat p.toNat = ((c ^^^ p).toNat : ℤ) := by
  rw [UInt8.toNat_xor]
  rfl

/-- **The message of a parameter byte encodes to the nine bytes of its frame.** -/
theorem to_bytes_request_message (c p : BYTE) :
    to_bytes (request_message c.toNat p.toNat)
      = .ok [0x11, 0x11, 0x11, c, p, c ^^^ p, 0x22, 0x22, 0x22] := by
  have hp : ¬ ((p.toNat : ℤ) = -1) := by omega
  have hstart : byteOf 0x11 = .ok 0x11 := byteOf_toNat 0x11
  have hend : byteOf 0x22 = .ok 0x22 := byteOf_toNat 0x22
  rw [request_message, if_neg hp, xor_toNat, to_bytes]
  simp only [List.mapM_cons, List.mapM_nil, hstart, hend, byteOf_toNat, bind, Except.bind, pure,
    Except.pure]

theorem Frame.bytes_eq (f : Frame) :
    f.bytes = [0x11, 0x11, 0x11, f.cmd, f.param, f.cmd ^^^ f.param, 0x22, 0x22, 0x22] := by
  have h := to_bytes_request_message f.cmd f.param
  unfold bytes requestBytes
  rw [h]

@[simp] theorem Frame.length_bytes (f : Frame) : f.bytes.length = 9 := by
  rw [f.bytes_eq]
  rfl

/-- The command byte of a frame is neither zero nor one of the marker bytes. -/
theorem Frame.cmd_ne (f : Frame) : f.cmd ≠ 0 ∧ f.cmd ≠ SYNC_BYTE ∧ f.cmd ≠ END_BYTE := by
  have h₁ := f.one_le
  have h₇ := f.le_seven
  refine ⟨?_, ?_, ?_⟩
  · intro h
    rw [h] at h₁
    exact absurd h₁ (by decide)
  · intro h
    rw [h] at h₇
    exact absurd h₇ (by decide)
  · intro h
    rw [h] at h₇
    exact absurd h₇ (by decide)

/-- **A byte value travels as a frame** of its command, and -1 as the frame of 255. -/
theorem exists_frame_requestBytes {row : String × CmdParams} (hrow : row ∈ valid_cmds)
    (hid : row.2.byteId ≠ -1) {value : ℤ} (hvalue : value = -1 ∨ 0 ≤ value ∧ value ≤ 255) :
    ∃ f : Frame, requestBytes row.2.byteId value = f.bytes ∧
      (f.cmd.toNat : ℤ) = row.2.byteId ∧ (value ≠ -1 → (f.param.toNat : ℤ) = value) := by
  have hrange := byteId_mem_range row hrow hid
  have hbyte : ∀ n : ℤ, 0 ≤ n ∧ n ≤ 255 → ((UInt8.ofNat n.toNat).toNat : ℤ) = n := by
    intro n hn
    rw [UInt8.toNat_ofNat']
    omega
  have hcmd := hbyte row.2.byteId (by omega)
  have h₁ : 1 ≤ UInt8.ofNat row.2.byteId.toNat := by
    rw [UInt8.le_iff_toNat_le]
    change 1 ≤ _
    omega
  have h₇ : UInt8.ofNat row.2.byteId.toNat ≤ 7 := by
    rw [UInt8.le_iff_toNat_le]
    change _ ≤ 7
    omega
  rcases hvalue with rfl | hvalue
  · refine ⟨⟨_, 255, h₁, h₇⟩, ?_, hcmd, fun h => absurd rfl h⟩
    rw [Frame.bytes, hcmd]
    rfl
  · refine ⟨⟨_, UInt8.ofNat value.toNat, h₁, h₇⟩, ?_, hcmd, fun _ => hbyte value hvalue⟩
    rw [Frame.bytes, hcmd, hbyte value hvalue]

/-! ## Quiet words

A word is quiet when the receiver, waiting in `sync()` with no byte matched, reads it without
handing anything on and ends up there again. What a broken packet leaves behind has to be quiet. -/

/-- The word is read without effect from `sync()` with no byte matched. -/
def Quiet (word : List BYTE) : Prop :=
  ∀ n, emits Receiver.step .start n word = [] ∧ after Receiver.step .start word = .start

theorem Quiet.append {u v : List BYTE} (hu : Quiet u) (hv : Quiet v) : Quiet (u ++ v) := by
  intro n
  rw [emits_append, after_append, (hu n).1, (hu n).2, (hv _).1, (hv n).2]
  exact ⟨rfl, rfl⟩

/-- **A sync run cut short is quiet**: fewer bytes than a full run, then a byte that breaks it. -/
theorem quiet_short {u : List BYTE} {b : BYTE} (hu : u.length < PACK_START_LEN)
    (hb : b ≠ SYNC_BYTE) : Quiet (u ++ [b]) := by
  -- generalised to a run of `i` bytes already matched
  have hrun : ∀ (u : List BYTE) (i : Fin PACK_START_LEN) (n : ℕ), i.val + u.length < PACK_START_LEN →
      emits Receiver.step (.sync i) n (u ++ [b]) = [] ∧
        after Receiver.step (.sync i) (u ++ [b]) = .start := by
    intro u
    induction u with
    | nil =>
        intro i n _
        rw [List.nil_append, emits_cons, after_cons, Receiver.step, if_pos hb]
        exact ⟨rfl, rfl⟩
    | cons a u ih =>
        intro i n hlen
        rw [List.length_cons] at hlen
        rw [List.cons_append, emits_cons, after_cons, Receiver.step]
        by_cases ha : a ≠ SYNC_BYTE
        · rw [if_pos ha]
          exact ih 0 (n + 1) (by rw [Fin.val_zero]; omega)
        · have hi : i.val + 1 < PACK_START_LEN := by omega
          rw [if_neg ha, dif_pos hi]
          exact ih ⟨i.val + 1, hi⟩ (n + 1) (by dsimp only; omega)
  intro n
  exact hrun u 0 n (by rw [Fin.val_zero]; omega)

/-- End bytes are quiet. -/
theorem quiet_end (k : ℕ) : Quiet (List.replicate k END_BYTE) := by
  induction k with
  | zero => exact fun n => ⟨rfl, rfl⟩
  | succ k ih =>
      rw [List.replicate_succ, ← List.singleton_append]
      exact Quiet.append (quiet_short (u := []) (by decide) (by decide)) ih

/-! ## Reading a buffer -/

/-- `checkPacket()` on a full buffer: three end bytes and the xor of the payload. -/
theorem checkPacket_iff (b₀ b₁ b₂ b₃ b₄ b₅ : BYTE) :
    checkPacket [b₀, b₁, b₂, b₃, b₄, b₅]
      ↔ b₅ = END_BYTE ∧ b₄ = END_BYTE ∧ b₃ = END_BYTE ∧ b₂ = b₀ ^^^ b₁ := by
  simp [checkPacket, List.range_succ, and_assoc]

/-- `fillBuff` takes exactly the bytes the buffer lacks. -/
theorem fillBuff_append (buff : PartialBuff) (bs rest : List BYTE)
    (hlen : buff.val.length + bs.length = BUFF_LEN) :
    fillBuff buff (bs ++ rest) = .ok (buff.val ++ bs, rest) := by
  induction bs generalizing buff with
  | nil =>
      have := buff.property
      simp only [List.length_nil] at hlen
      omega
  | cons b bs ih =>
      rw [List.length_cons] at hlen
      have hlen' : (buff.val ++ [b]).length + bs.length = BUFF_LEN := by
        rw [List.length_append, List.length_singleton]
        omega
      rw [List.cons_append, fillBuff]
      by_cases h : (buff.val ++ [b]).length < BUFF_LEN
      · rw [dif_pos h, ih ⟨buff.val ++ [b], h⟩ hlen', List.append_assoc, List.singleton_append]
      · have hbs : bs = [] := List.eq_nil_of_length_eq_zero (by omega)
        rw [dif_neg h, hbs, List.nil_append]

/-- **A filled buffer is handed on if it passes the check**, and reading goes on in `sync()`. -/
theorem emits_fill (buff : PartialBuff) (bs rest : List BYTE) (n : ℕ)
    (hlen : buff.val.length + bs.length = BUFF_LEN) :
    emits Receiver.step (.receiveData buff) n (bs ++ rest)
        = (if checkPacket (buff.val ++ bs) then [(n + bs.length, payload (buff.val ++ bs))] else [])
          ++ emits Receiver.step .start (n + bs.length) rest ∧
      after Receiver.step (.receiveData buff) (bs ++ rest) = after Receiver.step .start rest := by
  have hfill := emits_fillBuff buff n (bs ++ rest)
  rw [fillBuff_append buff bs rest hlen] at hfill
  have hcount : (bs ++ rest).length - rest.length = bs.length := by simp
  dsimp only at hfill
  rw [hcount] at hfill
  exact hfill

/-- The bytes that complete a sync run lead silently into `receiveData()`. -/
theorem emits_syncRun (i : Fin PACK_START_LEN) (k : ℕ) (rest : List BYTE) (n : ℕ)
    (hk : i.val + k = PACK_START_LEN) :
    emits Receiver.step (.sync i) n (List.replicate k SYNC_BYTE ++ rest)
        = emits Receiver.step .synced (n + k) rest ∧
      after Receiver.step (.sync i) (List.replicate k SYNC_BYTE ++ rest)
        = after Receiver.step .synced rest := by
  induction k generalizing i n with
  | zero => omega
  | succ k ih =>
      rw [List.replicate_succ, List.cons_append, emits_cons, after_cons, Receiver.step,
        if_neg (not_not.mpr rfl)]
      by_cases hi : i.val + 1 < PACK_START_LEN
      · have hnext := ih ⟨i.val + 1, hi⟩ (n + 1) (by dsimp only; omega)
        rw [dif_pos hi, show n + (k + 1) = n + 1 + k by omega]
        exact hnext
      · obtain rfl : k = 0 := by omega
        rw [dif_neg hi]
        exact ⟨rfl, rfl⟩

/-- A buffer that fails the check and a quiet rest: nothing is handed on. -/
theorem reject_fill (buff : PartialBuff) (bs rest : List BYTE) (n : ℕ)
    (hlen : buff.val.length + bs.length = BUFF_LEN) (hcheck : ¬ checkPacket (buff.val ++ bs))
    (hrest : Quiet rest) :
    emits Receiver.step (.receiveData buff) n (bs ++ rest) = [] ∧
      after Receiver.step (.receiveData buff) (bs ++ rest) = .start := by
  have h := emits_fill buff bs rest n hlen
  rw [h.1, h.2, if_neg hcheck, (hrest _).1, (hrest n).2]
  exact ⟨rfl, rfl⟩

/-- **From `sync()` with no byte matched, a sync run and six bytes are one packet**, handed on if it
passes the check, and reading goes on in `sync()`. -/
theorem emits_packet (buff : List BYTE) (hbuff : buff.length = BUFF_LEN) (rest : List BYTE) (n : ℕ) :
    emits Receiver.step .start n (List.replicate 3 SYNC_BYTE ++ (buff ++ rest))
        = (if checkPacket buff then [(n + 9, payload buff)] else [])
          ++ emits Receiver.step .start (n + 9) rest ∧
      after Receiver.step .start (List.replicate 3 SYNC_BYTE ++ (buff ++ rest))
        = after Receiver.step .start rest := by
  have hsync := emits_syncRun 0 3 (buff ++ rest) n rfl
  have hfill := emits_fill ⟨[], by decide⟩ buff rest (n + 3) (by rw [hbuff]; rfl)
  have hpos : n + 3 + buff.length = n + 9 := congrArg (n + 3 + ·) hbuff
  rw [List.nil_append, hpos] at hfill
  exact ⟨hsync.1.trans hfill.1, hsync.2.trans hfill.2⟩

/-- **From `sync()` with no byte matched, a frame is accepted at its last byte.** -/
theorem frame_from_start (f : Frame) (n : ℕ) :
    emits Receiver.step .start n f.bytes = [(n + f.bytes.length, f.payload)] ∧
      after Receiver.step .start f.bytes = .start := by
  have hcheck : checkPacket [f.cmd, f.param, f.cmd ^^^ f.param, END_BYTE, END_BYTE, END_BYTE] :=
    (checkPacket_iff _ _ _ _ _ _).mpr ⟨rfl, rfl, rfl, rfl⟩
  have hpacket := emits_packet [f.cmd, f.param, f.cmd ^^^ f.param, END_BYTE, END_BYTE, END_BYTE] rfl [] n
  rw [if_pos hcheck] at hpacket
  rw [f.length_bytes, f.bytes_eq]
  exact hpacket

/-- What a packet leaves over when the receiver stops reading it inside the payload. -/
theorem quiet_payload {u : List BYTE} (hu : u.length < PACK_START_LEN) (k : ℕ) :
    Quiet (u ++ END_BYTE :: List.replicate k END_BYTE) := by
  rw [← List.singleton_append, ← List.append_assoc]
  exact (quiet_short hu (by decide)).append (quiet_end k)

/-- What a frame leaves over when the receiver stops reading it before the command byte, with `k`
sync bytes to come. -/
theorem quiet_frame (f : Frame) {k : ℕ} (hk : k < PACK_START_LEN) :
    Quiet (List.replicate k SYNC_BYTE
      ++ [f.cmd, f.param, f.cmd ^^^ f.param, END_BYTE, END_BYTE, END_BYTE]) := by
  have hcmd : Quiet (List.replicate k SYNC_BYTE ++ [f.cmd]) :=
    quiet_short (by rwa [List.length_replicate]) f.cmd_ne.2.1
  have hrest : Quiet ([f.param, f.cmd ^^^ f.param] ++ END_BYTE :: List.replicate 2 END_BYTE) :=
    quiet_payload (by rw [List.length_cons, List.length_singleton]; decide) 2
  have h := hcmd.append hrest
  rw [List.append_assoc] at h
  exact h

/-- Two equal bytes cancel in an xor. -/
theorem xor_xor_cancel_left (a b : BYTE) : a ^^^ (a ^^^ b) = b := by
  rw [← UInt8.xor_assoc, UInt8.xor_self, UInt8.zero_xor]

/-- A frame read from inside `sync()`, some bytes being matched already: the run completes early and
the buffer starts with the remaining sync bytes. -/
theorem frame_from_sync {i : Fin PACK_START_LEN} (hi : i ≠ 0) (f : Frame) (n : ℕ) :
    emits Receiver.step (.sync i) n f.bytes = [] ∧ after Receiver.step (.sync i) f.bytes = .start := by
  match i, hi with
  | 1, _ =>
      have hcheck : ¬ checkPacket
          [SYNC_BYTE, f.cmd, f.param, f.cmd ^^^ f.param, END_BYTE, END_BYTE] := by
        rw [checkPacket_iff]
        rintro ⟨-, -, hx, hp⟩
        -- the checksum position holds the parameter, so the first end byte would be a sync byte
        rw [hp, UInt8.xor_comm SYNC_BYTE, xor_xor_cancel_left] at hx
        exact absurd hx (by decide)
      have hsync := emits_syncRun 1 2
        ([SYNC_BYTE, f.cmd, f.param, f.cmd ^^^ f.param, END_BYTE, END_BYTE] ++ [END_BYTE]) n rfl
      have hfill := reject_fill ⟨[], by decide⟩ _ _ (n + 2) rfl hcheck (quiet_end 1)
      rw [f.bytes_eq]
      exact ⟨hsync.1.trans hfill.1, hsync.2.trans hfill.2⟩
  | 2, _ =>
      have hcheck : ¬ checkPacket
          [SYNC_BYTE, SYNC_BYTE, f.cmd, f.param, f.cmd ^^^ f.param, END_BYTE] := by
        rw [checkPacket_iff]
        rintro ⟨-, -, -, hc⟩
        -- the checksum position holds the command byte, which would be the xor of two sync bytes
        exact f.cmd_ne.1 hc
      have hsync := emits_syncRun 2 1
        ([SYNC_BYTE, SYNC_BYTE, f.cmd, f.param, f.cmd ^^^ f.param, END_BYTE] ++ [END_BYTE, END_BYTE])
        n rfl
      have hfill := reject_fill ⟨[], by decide⟩ _ _ (n + 1) rfl hcheck (quiet_end 2)
      rw [f.bytes_eq]
      exact ⟨hsync.1.trans hfill.1, hsync.2.trans hfill.2⟩

/-- A frame read from inside `receiveData()`: its first bytes complete a buffer whose end bytes are
sync bytes or the command byte of the frame, and the check fails. -/
theorem frame_from_receiveData (buff : PartialBuff) (f : Frame) (n : ℕ) :
    emits Receiver.step (.receiveData buff) n f.bytes = [] ∧
      after Receiver.step (.receiveData buff) f.bytes = .start := by
  have hcmd : f.cmd ≠ END_BYTE := f.cmd_ne.2.2
  have hsync : SYNC_BYTE ≠ END_BYTE := by decide
  obtain ⟨buff, hbuff⟩ := buff
  rw [f.bytes_eq]
  -- one case for each number of bytes the buffer lacks
  rcases buff with _ | ⟨b₀, _ | ⟨b₁, _ | ⟨b₂, _ | ⟨b₃, _ | ⟨b₄, _ | ⟨b₅, buff⟩⟩⟩⟩⟩⟩
  · exact reject_fill ⟨[], hbuff⟩ [SYNC_BYTE, SYNC_BYTE, SYNC_BYTE, f.cmd, f.param, f.cmd ^^^ f.param]
      _ n rfl (fun h => hcmd ((checkPacket_iff _ _ _ _ _ _).mp h).2.2.1) (quiet_end 3)
  · exact reject_fill ⟨[b₀], hbuff⟩ [SYNC_BYTE, SYNC_BYTE, SYNC_BYTE, f.cmd, f.param] _ n rfl
      (fun h => hcmd ((checkPacket_iff _ _ _ _ _ _).mp h).2.1)
      (quiet_payload (u := [f.cmd ^^^ f.param]) (by rw [List.length_singleton]; decide) 2)
  · exact reject_fill ⟨[b₀, b₁], hbuff⟩ [SYNC_BYTE, SYNC_BYTE, SYNC_BYTE, f.cmd] _ n rfl
      (fun h => hcmd ((checkPacket_iff _ _ _ _ _ _).mp h).1)
      (quiet_payload (u := [f.param, f.cmd ^^^ f.param])
        (by rw [List.length_cons, List.length_singleton]; decide) 2)
  · exact reject_fill ⟨[b₀, b₁, b₂], hbuff⟩ [SYNC_BYTE, SYNC_BYTE, SYNC_BYTE] _ n rfl
      (fun h => hsync ((checkPacket_iff _ _ _ _ _ _).mp h).1) (quiet_frame f (k := 0) (by decide))
  · exact reject_fill ⟨[b₀, b₁, b₂, b₃], hbuff⟩ [SYNC_BYTE, SYNC_BYTE] _ n rfl
      (fun h => hsync ((checkPacket_iff _ _ _ _ _ _).mp h).1) (quiet_frame f (k := 1) (by decide))
  · exact reject_fill ⟨[b₀, b₁, b₂, b₃, b₄], hbuff⟩ [SYNC_BYTE] _ n rfl
      (fun h => hsync ((checkPacket_iff _ _ _ _ _ _).mp h).1) (quiet_frame f (k := 2) (by decide))
  · have hlen : BUFF_LEN = 6 := rfl
    simp only [List.length_cons] at hbuff
    omega

/-- **From anywhere else, a frame is lost and the receiver is back in step.** Whatever partial state
the line before left behind, reading the frame hands nothing on and ends in `sync()` with no byte
matched. -/
theorem frame_from_other {r : Receiver} (hr : r ≠ .start) (f : Frame) (n : ℕ) :
    emits Receiver.step r n f.bytes = [] ∧ after Receiver.step r f.bytes = .start := by
  cases r with
  | sync i => exact frame_from_sync (fun hi => hr (congrArg Receiver.sync hi)) f n
  | receiveData buff => exact frame_from_receiveData buff f n

/-- The positions and payloads of a sequence of frames that starts after `n` bytes. -/
def frameEnds (n : ℕ) (fs : List Frame) : List (ℕ × Payload) :=
  wordEnds Frame.bytes Frame.payload n fs

/-- **In step, every frame of a sequence is accepted**, at its last byte and nowhere else. -/
theorem frames_from_start (fs : List Frame) (n : ℕ) :
    emits Receiver.step .start n (fs.flatMap Frame.bytes) = frameEnds n fs ∧
      after Receiver.step .start (fs.flatMap Frame.bytes) = .start :=
  emits_flatMap Frame.bytes Frame.payload (fun f => (frame_from_start f 0).2)
    (fun f m => (frame_from_start f m).1) n fs

/-- The nine bytes the receiver consumed last when `m` bytes of the line are gone: three of a sync
run and six of the buffer. -/
def lastNine (line : List BYTE) (m : ℕ) : List BYTE := (line.take m).drop (m - 9)

/-- What is accepted from a sequence of frames is read from the nine bytes of one of them. -/
theorem lastNine_of_mem_frameEnds {before : List BYTE} {fs : List Frame} {a : ℕ × Payload}
    (ha : a ∈ frameEnds before.length fs) :
    ∃ pre g post, fs = pre ++ g :: post ∧
      a.1 = (before ++ pre.flatMap Frame.bytes).length + 9 ∧
      lastNine (before ++ fs.flatMap Frame.bytes) a.1 = g.bytes ∧ a.2 = g.payload := by
  obtain ⟨pre, g, post, rfl, rfl⟩ := exists_of_mem_wordEnds _ _ ha
  have hpos : before.length + (pre.flatMap Frame.bytes).length + g.bytes.length
      = (before ++ pre.flatMap Frame.bytes).length + 9 := by
    rw [g.length_bytes, List.length_append]
  refine ⟨pre, g, post, rfl, hpos, ?_, rfl⟩
  have hline : before ++ (pre ++ g :: post).flatMap Frame.bytes
      = (before ++ pre.flatMap Frame.bytes) ++ (g.bytes ++ post.flatMap Frame.bytes) := by
    simp only [List.flatMap_append, List.flatMap_cons, List.append_assoc]
  dsimp only
  rw [hpos, hline, lastNine, List.take_length_add_append, Nat.add_sub_cancel, List.drop_left,
    List.take_left' g.length_bytes]

/-- **The receiver synchronises itself.** After arbitrary bytes `noise`, a non-empty sequence of
frames is accepted in full or without its first frame, on top of what the noise alone gives; every
payload beyond those of the noise is read from the nine bytes of a single frame; and the receiver
ends up waiting for a fresh packet. No frame is lost when the noise leaves the receiver in step. -/
theorem receiver_resyncs (noise : List BYTE) (f : Frame) (fs : List Frame) :
    let onNoise := runLoop 0 noise
    let line := noise ++ (f :: fs).flatMap Frame.bytes
    let onLine := runLoop 0 line
    (onLine.1 = onNoise.1 ++ frameEnds noise.length (f :: fs) ∨
        onLine.1 = onNoise.1 ++ frameEnds (noise.length + 9) fs) ∧
      (∀ a ∈ onLine.1, a ∈ onNoise.1 ∨
        ∃ pre g post, f :: fs = pre ++ g :: post ∧
          a.1 = (noise ++ pre.flatMap Frame.bytes).length + 9 ∧
          lastNine line a.1 = g.bytes ∧ a.2 = g.payload) ∧
      onLine.2 = .start ∧
      (onNoise.2 = .start → onLine.1 = onNoise.1 ++ frameEnds noise.length (f :: fs)) := by
  simp only [runLoop_eq, emits_append, after_append, Nat.zero_add]
  generalize after Receiver.step .start noise = r
  by_cases hr : r = .start
  · -- in step: the whole sequence is read frame by frame
    subst hr
    have h := frames_from_start (f :: fs) noise.length
    rw [h.1, h.2]
    refine ⟨.inl rfl, fun a ha => ?_, rfl, fun _ => rfl⟩
    exact (List.mem_append.mp ha).imp id lastNine_of_mem_frameEnds
  · -- out of step: the first frame puts the receiver back in step
    have hfirst := frame_from_other hr f noise.length
    have hrest := frames_from_start fs (noise.length + 9)
    rw [List.flatMap_cons, emits_append, after_append, hfirst.1, hfirst.2, f.length_bytes, hrest.1,
      hrest.2]
    refine ⟨.inr rfl, fun a ha => ?_, rfl, fun h => absurd h hr⟩
    refine (List.mem_append.mp ha).imp id fun ha => ?_
    have hlen : noise.length + 9 = (noise ++ f.bytes).length := by
      rw [List.length_append, f.length_bytes]
    rw [List.nil_append, hlen] at ha
    obtain ⟨pre, g, post, rfl, hpos, hlast, hg⟩ := lastNine_of_mem_frameEnds ha
    refine ⟨f :: pre, g, post, rfl, ?_, ?_, hg⟩
    · rw [hpos, List.flatMap_cons, List.append_assoc]
    · rw [List.append_assoc] at hlast
      exact hlast

end LibreXC.SerialLink
