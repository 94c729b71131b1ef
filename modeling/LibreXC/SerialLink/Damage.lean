import LibreXC.SerialLink.Frames

/-! # Damaged frames

What the receiver accepts when one frame of a sequence is damaged in one byte.

* **A changed byte** costs exactly its frame (`substituted_costs_one`): the damaged frame is read as a
  quiet word, so the receiver is in step again when it ends.
* **A lost or an extra byte** shifts the checksum and the end bytes against the buffer. The frame is
  lost, and the next one may be lost with it, or the frame is read as sent. There is one exception: a
  frame whose checksum is itself an end byte, with another end byte put in beside its command byte,
  passes the check with different bytes in its payload (`payloads_slip_iff`). -/

namespace LibreXC.SerialLink

open Arduino Transducer

/-- The payloads the receiver accepts on a line, from `sync()` with no byte matched. -/
def payloads (line : List BYTE) : List Payload := (runLoop 0 line).1.map Prod.snd

theorem payloads_eq (line : List BYTE) : payloads line = outputs Receiver.step .start line := by
  rw [payloads, runLoop_eq]
  rfl

/-! ## A changed byte -/

/-- A packet that fails the check is quiet. -/
theorem quiet_packet {b₀ b₁ b₂ b₃ b₄ b₅ : BYTE} (h : ¬ checkPacket [b₀, b₁, b₂, b₃, b₄, b₅]) :
    Quiet [SYNC_BYTE, SYNC_BYTE, SYNC_BYTE, b₀, b₁, b₂, b₃, b₄, b₅] := by
  intro n
  have hpacket := emits_packet [b₀, b₁, b₂, b₃, b₄, b₅] rfl [] n
  rw [if_neg h] at hpacket
  exact hpacket

/-- **A frame with one byte changed is quiet.** A changed sync byte breaks the run, and the rest of
the frame holds no other; every other changed byte fails the check. -/
theorem Frame.quiet_set (f : Frame) {k : ℕ} (hk : k < 9) {b : BYTE} (hb : f.bytes[k]? ≠ some b) :
    Quiet (f.bytes.set k b) := by
  rw [f.bytes_eq] at hb ⊢
  -- a byte changed behind the sync run: the six bytes of the buffer are checked
  have hcheck : ∀ {b₀ b₁ b₂ b₃ b₄ b₅ : BYTE},
      ¬ (b₅ = END_BYTE ∧ b₄ = END_BYTE ∧ b₃ = END_BYTE ∧ b₂ = b₀ ^^^ b₁) →
      Quiet [SYNC_BYTE, SYNC_BYTE, SYNC_BYTE, b₀, b₁, b₂, b₃, b₄, b₅] :=
    fun h => quiet_packet (mt (checkPacket_iff _ _ _ _ _ _).mp h)
  have hne : ∀ {a : BYTE}, some a ≠ some b → b ≠ a := fun h heq => h (congrArg some heq.symm)
  match k, hk with
  | 0, _ =>
      have hbreak : Quiet ([] ++ [b]) := quiet_short (by decide) (hne hb)
      exact hbreak.append (quiet_frame f (k := 2) (by decide))
  | 1, _ =>
      have hbreak : Quiet ([SYNC_BYTE] ++ [b]) := quiet_short (by decide) (hne hb)
      exact hbreak.append (quiet_frame f (k := 1) (by decide))
  | 2, _ =>
      have hbreak : Quiet ([SYNC_BYTE, SYNC_BYTE] ++ [b]) := quiet_short (by decide) (hne hb)
      exact hbreak.append (quiet_frame f (k := 0) (by decide))
  | 3, _ => exact hcheck fun h => hne hb ((UInt8.xor_left_inj f.param).mp h.2.2.2).symm
  | 4, _ => exact hcheck fun h => hne hb ((UInt8.xor_right_inj f.cmd).mp h.2.2.2).symm
  | 5, _ => exact hcheck fun h => hne hb h.2.2.2
  | 6, _ => exact hcheck fun h => hne hb h.2.2.1
  | 7, _ => exact hcheck fun h => hne hb h.2.1
  | 8, _ => exact hcheck fun h => hne hb h.1

/-- The line of a sequence of frames has nine bytes a frame. -/
theorem length_flatMap_bytes (fs : List Frame) : (fs.flatMap Frame.bytes).length = 9 * fs.length := by
  induction fs with
  | nil => rfl
  | cons f fs ih =>
      rw [List.flatMap_cons, List.length_append, ih, f.length_bytes, List.length_cons]
      omega

/-- **A changed byte costs exactly one frame.** Whichever byte of whichever frame is replaced by a
different one, the receiver accepts the payloads of all other frames, each at its last byte, and ends
up in step. -/
theorem substituted_costs_one (pre : List Frame) (f : Frame) (post : List Frame) {k : ℕ} (hk : k < 9)
    {b : BYTE} (hb : f.bytes[k]? ≠ some b) :
    let line := pre.flatMap Frame.bytes ++ f.bytes.set k b ++ post.flatMap Frame.bytes
    payloads line = (pre ++ post).map Frame.payload ∧
      runLoop 0 line = (frameEnds 0 pre ++ frameEnds (9 * pre.length + 9) post, .start) := by
  intro line
  have hloop : runLoop 0 line
      = (frameEnds 0 pre ++ frameEnds (9 * pre.length + 9) post, .start) := by
    have hpre := frames_from_start pre 0
    have hdamaged := f.quiet_set hk hb (9 * pre.length)
    have hpost := frames_from_start post (9 * pre.length + 9)
    have hlen : (pre.flatMap Frame.bytes ++ f.bytes.set k b).length = 9 * pre.length + 9 := by
      rw [List.length_append, length_flatMap_bytes, List.length_set, f.length_bytes]
    have hstep : after Receiver.step .start (pre.flatMap Frame.bytes ++ f.bytes.set k b) = .start := by
      rw [after_append, hpre.2, hdamaged.2]
    rw [runLoop_eq]
    refine Prod.ext ?_ ?_
    · dsimp only [line]
      rw [emits_append, hstep, emits_append, hpre.1, hpre.2, Nat.zero_add, Nat.zero_add,
        length_flatMap_bytes, hdamaged.1, hlen, hpost.1, List.append_nil]
    · dsimp only [line]
      rw [after_append, hstep, hpost.2]
  refine ⟨?_, hloop⟩
  rw [payloads, hloop, List.map_append, frameEnds, frameEnds, map_snd_wordEnds, map_snd_wordEnds,
    List.map_append]

/-- The checksum of a `read_pid` frame changed into a sync byte; the frame behind it is accepted. -/
theorem substituted_costs_one_read_pid :
    let read_pid : Frame := ⟨4, 12, by decide, by decide⟩
    let reset : Frame := ⟨1, 255, by decide, by decide⟩
    read_pid.bytes[5]? ≠ some 0x11 ∧
      payloads ([].flatMap Frame.bytes ++ read_pid.bytes.set 5 0x11 ++ [reset].flatMap Frame.bytes)
        = [⟨1, 255⟩] := by
  intro read_pid reset
  have hchanged : read_pid.bytes[5]? ≠ some 0x11 := by decide +kernel
  exact ⟨hchanged, (substituted_costs_one [] read_pid [reset] (by decide) hchanged).1⟩

/-! ## A lost or an extra byte -/

/-- **One byte too few or too many in a frame.** -/
inductive Slip
  | delete (k : Fin 9)
  | insert (k : Fin 10) (b : BYTE)

/-- The bytes of a frame after the slip. -/
def Slip.apply : Slip → List BYTE → List BYTE
  | .delete k, bytes => bytes.eraseIdx k
  | .insert k b, bytes => bytes.insertIdx k b

/-- **The slip goes unnoticed**: an end byte was put in beside the command byte of a frame whose
checksum is an end byte. -/
def Slip.Confuses (f : Frame) : Slip → Prop
  | .delete _ => False
  | .insert k b => (k = 3 ∨ k = 4) ∧ b = END_BYTE ∧ f.cmd ^^^ f.param = END_BYTE

/-- The payload that is then accepted. -/
def Slip.confused (f : Frame) : Slip → Payload
  | .insert 3 _ => ⟨END_BYTE, f.cmd⟩
  | _ => ⟨f.cmd, END_BYTE⟩

/-- **Frames from anywhere**: all of them are accepted, or all but the first. -/
theorem outputs_frames (r : Receiver) (fs : List Frame) :
    outputs Receiver.step r (fs.flatMap Frame.bytes) = fs.map Frame.payload ∨
      outputs Receiver.step r (fs.flatMap Frame.bytes) = fs.tail.map Frame.payload := by
  have hstart : ∀ fs : List Frame,
      outputs Receiver.step .start (fs.flatMap Frame.bytes) = fs.map Frame.payload := by
    intro fs
    rw [outputs, (frames_from_start fs 0).1, frameEnds, map_snd_wordEnds]
  by_cases hr : r = .start
  · exact .inl (hr ▸ hstart fs)
  · cases fs with
    | nil => exact .inl rfl
    | cons f fs =>
        -- the first frame puts the receiver back in step
        have hfirst := frame_from_other hr f 0
        right
        rw [List.flatMap_cons, outputs_append, outputs, hfirst.1, hfirst.2, hstart]
        rfl

/-- A quiet word hands nothing on. -/
theorem outputs_of_quiet {word : List BYTE} (h : Quiet word) :
    outputs Receiver.step .start word = [] := congrArg (List.map Prod.snd) (h 0).1

/-- Too few bytes for a buffer hand nothing on. -/
theorem outputs_short (buff : PartialBuff) (bytes : List BYTE)
    (h : buff.val.length + bytes.length < BUFF_LEN) :
    outputs Receiver.step (.receiveData buff) bytes = [] := by
  induction bytes generalizing buff with
  | nil => rfl
  | cons b bytes ih =>
      rw [List.length_cons] at h
      have hroom : (buff.val ++ [b]).length < BUFF_LEN := by
        rw [List.length_append, List.length_singleton]
        omega
      have hstep : Receiver.step (.receiveData buff) b
          = (.receiveData ⟨buff.val ++ [b], hroom⟩, none) := by rw [Receiver.step, dif_pos hroom]
      rw [outputs, emits_cons, hstep, List.map_append, map_snd_emits, ih]
      · rfl
      · dsimp only
        rw [List.length_append, List.length_singleton]
        omega

/-- **A sync run and seven bytes**: the first six of them are checked, and the seventh is read from
`sync()`. -/
theorem outputs_packet (b₀ b₁ b₂ b₃ b₄ b₅ b₆ : BYTE) :
    let word := [SYNC_BYTE, SYNC_BYTE, SYNC_BYTE, b₀, b₁, b₂, b₃, b₄, b₅, b₆]
    outputs Receiver.step .start word
        = (if checkPacket [b₀, b₁, b₂, b₃, b₄, b₅] then [⟨b₀, b₁⟩] else []) ∧
      after Receiver.step .start word = after Receiver.step .start [b₆] := by
  have hpacket := emits_packet [b₀, b₁, b₂, b₃, b₄, b₅] rfl [b₆] 0
  have hlast : ∀ n, emits Receiver.step .start n [b₆] = [] := by
    intro n
    by_cases hb : b₆ ≠ SYNC_BYTE
    · rw [emits_cons, Receiver.start, Receiver.step, if_pos hb]
      rfl
    · rw [emits_cons, Receiver.start, Receiver.step, if_neg hb]
      rfl
  rw [hlast, List.append_nil] at hpacket
  refine ⟨(congrArg (List.map Prod.snd) hpacket.1).trans ?_, hpacket.2⟩
  split <;> rfl

/-- **A lost byte loses the frame.** Without a sync byte the run is too short; without any other byte
the buffer does not fill. -/
theorem outputs_delete (f : Frame) (k : Fin 9) :
    outputs Receiver.step .start (f.bytes.eraseIdx k) = [] := by
  have hshort : ∀ b₀ b₁ b₂ b₃ b₄ : BYTE, outputs Receiver.step .start
      [SYNC_BYTE, SYNC_BYTE, SYNC_BYTE, b₀, b₁, b₂, b₃, b₄] = [] := by
    intro b₀ b₁ b₂ b₃ b₄
    have hsync := (emits_syncRun 0 3 [b₀, b₁, b₂, b₃, b₄] 0 rfl).1
    refine (congrArg (List.map Prod.snd) hsync).trans ?_
    rw [map_snd_emits]
    exact outputs_short _ _ (Nat.lt_succ_self 5)
  rw [f.bytes_eq]
  match k with
  | 0 | 1 | 2 => exact outputs_of_quiet (quiet_frame f (k := 2) (by decide))
  | 3 | 4 | 5 | 6 | 7 | 8 => exact hshort _ _ _ _ _

/-- A fourth sync byte before the command byte loses the frame: the checksum of what is read as a
packet would have to be a sync byte and an end byte at once. -/
theorem outputs_fourth_sync (f : Frame) :
    outputs Receiver.step .start [SYNC_BYTE, SYNC_BYTE, SYNC_BYTE, SYNC_BYTE, f.cmd, f.param,
      f.cmd ^^^ f.param, END_BYTE, END_BYTE, END_BYTE] = [] := by
  rw [(outputs_packet _ _ _ _ _ _ _).1, if_neg]
  rw [checkPacket_iff]
  rintro ⟨-, -, hx, hp⟩
  rw [hp, UInt8.xor_comm SYNC_BYTE, xor_xor_cancel_left] at hx
  exact absurd hx (by decide)

/-- **An extra byte in the sync run** loses the frame, unless it is another byte in front of it. -/
theorem outputs_insert_sync (f : Frame) {k : Fin 10} (hk : k < 3) (b : BYTE) :
    outputs Receiver.step .start (f.bytes.insertIdx k b) = [] ∨
      outputs Receiver.step .start (f.bytes.insertIdx k b) = [f.payload] := by
  by_cases hb : b = SYNC_BYTE
  · subst hb
    rw [f.bytes_eq]
    match k, hk with
    | 0, _ | 1, _ | 2, _ => exact .inl (outputs_fourth_sync f)
  · match k, hk with
    | 0, _ =>
        have hbreak : Quiet ([] ++ [b]) := quiet_short (by decide) hb
        have hword : f.bytes.insertIdx ((0 : Fin 10) : ℕ) b = ([] ++ [b]) ++ f.bytes := by
          rw [Fin.val_zero, List.insertIdx_zero, List.nil_append, List.singleton_append]
        have hframe : outputs Receiver.step .start f.bytes = [f.payload] := by
          rw [outputs, (frame_from_start f 0).1]
          rfl
        right
        rw [hword, outputs_append, outputs_of_quiet hbreak, (hbreak 0).2, hframe]
        rfl
    | 1, _ =>
        have hbreak : Quiet ([SYNC_BYTE] ++ [b]) := quiet_short (by decide) hb
        rw [f.bytes_eq]
        exact .inl (outputs_of_quiet (hbreak.append (quiet_frame f (k := 2) (by decide))))
    | 2, _ =>
        have hbreak : Quiet ([SYNC_BYTE, SYNC_BYTE] ++ [b]) := quiet_short (by decide) hb
        rw [f.bytes_eq]
        exact .inl (outputs_of_quiet (hbreak.append (quiet_frame f (k := 1) (by decide))))

/-- **An extra byte beside the command byte** loses the frame, unless it and the checksum are end
bytes: with the packet shifted by one, the checksum stands where the first end byte is due. -/
theorem outputs_insert_cmd {f : Frame} {k : Fin 10} (hk : k = 3 ∨ k = 4) {b : BYTE}
    (h : ¬ (b = END_BYTE ∧ f.cmd ^^^ f.param = END_BYTE)) :
    outputs Receiver.step .start (f.bytes.insertIdx k b) = [] := by
  rw [f.bytes_eq]
  rcases hk with rfl | rfl
  · refine (outputs_packet b f.cmd f.param (f.cmd ^^^ f.param) END_BYTE END_BYTE END_BYTE).1.trans ?_
    rw [if_neg]
    rw [checkPacket_iff]
    rintro ⟨-, -, hx, hp⟩
    refine h ⟨?_, hx⟩
    rw [← hx, hp, UInt8.xor_comm b, xor_xor_cancel_left]
  · refine (outputs_packet f.cmd b f.param (f.cmd ^^^ f.param) END_BYTE END_BYTE END_BYTE).1.trans ?_
    rw [if_neg]
    rw [checkPacket_iff]
    rintro ⟨-, -, hx, hp⟩
    refine h ⟨?_, hx⟩
    rw [← hx, hp, xor_xor_cancel_left]

/-- **An extra byte behind the payload** loses the frame or leaves it as it was. -/
theorem outputs_insert_behind (f : Frame) {k : Fin 10} (hk : 5 ≤ k) (b : BYTE) :
    outputs Receiver.step .start (f.bytes.insertIdx k b) = [] ∨
      outputs Receiver.step .start (f.bytes.insertIdx k b) = [f.payload] := by
  have hpacket : ∀ b₂ b₃ b₄ b₅ b₆ : BYTE,
      outputs Receiver.step .start
          [SYNC_BYTE, SYNC_BYTE, SYNC_BYTE, f.cmd, f.param, b₂, b₃, b₄, b₅, b₆] = [] ∨
        outputs Receiver.step .start
          [SYNC_BYTE, SYNC_BYTE, SYNC_BYTE, f.cmd, f.param, b₂, b₃, b₄, b₅, b₆] = [f.payload] := by
    intro b₂ b₃ b₄ b₅ b₆
    rw [(outputs_packet _ _ _ _ _ _ _).1]
    split
    · exact .inr rfl
    · exact .inl rfl
  rw [f.bytes_eq]
  match k, hk with
  | 5, _ | 6, _ | 7, _ | 8, _ | 9, _ => exact hpacket _ _ _ _ _

/-- **A slip that goes noticed loses the frame or leaves it as it was.** -/
theorem outputs_slip {f : Frame} {slip : Slip} (h : ¬ slip.Confuses f) :
    outputs Receiver.step .start (slip.apply f.bytes) = [] ∨
      outputs Receiver.step .start (slip.apply f.bytes) = [f.payload] := by
  cases slip with
  | delete k => exact .inl (outputs_delete f k)
  | insert k b =>
      rcases show k < 3 ∨ (k = 3 ∨ k = 4) ∨ 5 ≤ k by omega with hk | hk | hk
      · exact outputs_insert_sync f hk b
      · exact .inl (outputs_insert_cmd hk fun hb => h ⟨hk, hb⟩)
      · exact outputs_insert_behind f hk b

/-- **A slip that goes unnoticed** makes the receiver accept other bytes, and leaves it in step. -/
theorem outputs_confused {f : Frame} {slip : Slip} (h : slip.Confuses f) :
    outputs Receiver.step .start (slip.apply f.bytes) = [slip.confused f] ∧
      after Receiver.step .start (slip.apply f.bytes) = .start := by
  cases slip with
  | delete k => exact absurd h id
  | insert k b =>
      obtain ⟨hk, rfl, hx⟩ := h
      have hparam : f.param = f.cmd ^^^ END_BYTE := by
        rw [← hx, xor_xor_cancel_left]
      rw [Slip.apply, f.bytes_eq]
      rcases hk with rfl | rfl
      · have hpacket := outputs_packet END_BYTE f.cmd f.param (f.cmd ^^^ f.param) END_BYTE END_BYTE END_BYTE
        have hcheck : checkPacket [END_BYTE, f.cmd, f.param, f.cmd ^^^ f.param, END_BYTE, END_BYTE] :=
          (checkPacket_iff _ _ _ _ _ _).mpr ⟨rfl, rfl, hx, by rw [hparam, UInt8.xor_comm]⟩
        rw [if_pos hcheck] at hpacket
        exact hpacket
      · have hpacket := outputs_packet f.cmd END_BYTE f.param (f.cmd ^^^ f.param) END_BYTE END_BYTE END_BYTE
        have hcheck : checkPacket [f.cmd, END_BYTE, f.param, f.cmd ^^^ f.param, END_BYTE, END_BYTE] :=
          (checkPacket_iff _ _ _ _ _ _).mpr ⟨rfl, rfl, hx, hparam⟩
        rw [if_pos hcheck] at hpacket
        exact hpacket

/-- The payload of an unnoticed slip is not the one that was sent. -/
theorem confused_ne {f : Frame} {slip : Slip} (h : slip.Confuses f) : slip.confused f ≠ f.payload := by
  cases slip with
  | delete k => exact absurd h id
  | insert k b =>
      obtain ⟨hk, -, hx⟩ := h
      intro heq
      rcases hk with rfl | rfl
      · exact f.cmd_ne.2.2 (congrArg Payload.cmd heq).symm
      · have hparam : END_BYTE = f.param := congrArg Payload.param heq
        -- the xor with the command byte changes the parameter, as the command byte is not zero
        rw [← hparam] at hx
        exact f.cmd_ne.1 ((UInt8.xor_left_inj END_BYTE).mp (hx.trans UInt8.zero_xor.symm))

/-- The payloads accepted when the word of one frame is replaced by another. -/
theorem payloads_around (pre post : List Frame) (word : List BYTE) :
    payloads (pre.flatMap Frame.bytes ++ word ++ post.flatMap Frame.bytes)
      = pre.map Frame.payload ++ outputs Receiver.step .start word
        ++ outputs Receiver.step (after Receiver.step .start word) (post.flatMap Frame.bytes) := by
  have hpre := frames_from_start pre 0
  have hword : after Receiver.step .start (pre.flatMap Frame.bytes ++ word)
      = after Receiver.step .start word := by rw [after_append, hpre.2]
  rw [payloads_eq, outputs_append, hword, outputs_append, hpre.2, outputs, hpre.1, frameEnds,
    map_snd_wordEnds]

/-- A slip that goes unnoticed: everything else is accepted as sent. -/
theorem payloads_of_confuses (pre : List Frame) {f : Frame} (post : List Frame) {slip : Slip}
    (h : slip.Confuses f) :
    payloads (pre.flatMap Frame.bytes ++ slip.apply f.bytes ++ post.flatMap Frame.bytes)
      = pre.map Frame.payload ++ slip.confused f :: post.map Frame.payload := by
  obtain ⟨hout, hafter⟩ := outputs_confused h
  rw [payloads_around, hout, hafter, outputs, (frames_from_start post 0).1, frameEnds,
    map_snd_wordEnds, List.append_assoc, List.singleton_append]

/-- **When a lost or an extra byte does not turn a command into another**: what is accepted is a
subsequence of what was sent, exactly when the slip is none of the two that go unnoticed. With one of
those, another payload is accepted in the place of the one sent. -/
theorem payloads_slip_iff (pre : List Frame) (f : Frame) (post : List Frame) (slip : Slip) :
    let line := pre.flatMap Frame.bytes ++ slip.apply f.bytes ++ post.flatMap Frame.bytes
    let sent := (pre ++ f :: post).map Frame.payload
    ((∀ a ∈ payloads line, a ∈ sent) ∧ (payloads line).Sublist sent ↔ ¬ slip.Confuses f) ∧
      (slip.Confuses f →
        payloads line = pre.map Frame.payload ++ slip.confused f :: post.map Frame.payload) := by
  intro line sent
  refine ⟨⟨fun ⟨_, hsub⟩ h => ?_, fun h => ?_⟩, payloads_of_confuses pre post⟩
  · -- as many payloads as were sent, so a subsequence would have to be all of them
    have hline := payloads_of_confuses pre post h
    have hsent : sent = pre.map Frame.payload ++ f.payload :: post.map Frame.payload := List.map_append
    have heq := hsub.eq_of_length (by
      rw [hline, hsent, List.length_append, List.length_append, List.length_cons, List.length_cons])
    rw [hline, hsent] at heq
    exact confused_ne h (List.cons.inj (List.append_cancel_left heq)).1
  · have hword : (outputs Receiver.step .start (slip.apply f.bytes)).Sublist [f.payload] := by
      rcases outputs_slip h with hout | hout
      · rw [hout]
        exact List.nil_sublist _
      · rw [hout]
    have hpost : (outputs Receiver.step (after Receiver.step .start (slip.apply f.bytes))
        (post.flatMap Frame.bytes)).Sublist (post.map Frame.payload) := by
      rcases outputs_frames (after Receiver.step .start (slip.apply f.bytes)) post with hout | hout
      · rw [hout]
      · rw [hout]
        exact post.tail_sublist.map _
    have hsub : (payloads line).Sublist sent := by
      have hsent : sent = pre.map Frame.payload ++ [f.payload] ++ post.map Frame.payload := by
        rw [List.append_assoc]
        exact List.map_append
      rw [hsent, payloads_around]
      exact ((List.Sublist.refl _).append hword).append hpost
    exact ⟨fun a ha => hsub.subset ha, hsub⟩

/-- `read_pid 38` with an end byte behind the command byte is read as `read_pid 34`. -/
theorem not_payloads_sublist_read_pid_38 :
    ¬ ∀ (pre : List Frame) (f : Frame) (post : List Frame) (slip : Slip),
      (payloads (pre.flatMap Frame.bytes ++ slip.apply f.bytes ++ post.flatMap Frame.bytes)).Sublist
        ((pre ++ f :: post).map Frame.payload) := by
  intro h
  let read_pid : Frame := ⟨4, 38, by decide, by decide⟩
  have hconfuses : (Slip.insert 4 0x22).Confuses read_pid := ⟨.inr rfl, rfl, by decide⟩
  have hsub := h [] read_pid [] (.insert 4 0x22)
  rw [payloads_of_confuses [] [] hconfuses] at hsub
  have hmem : (⟨4, 34⟩ : Payload) ∈ [(⟨4, 38⟩ : Payload)] := hsub.subset List.mem_cons_self
  exact absurd hmem (by decide)

end LibreXC.SerialLink
