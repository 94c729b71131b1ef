import LibreXC.SerialLink.Frames

/-! # What the receiver accepts from any line

On a line of arbitrary bytes the receiver accepts nothing but what is there: every payload it hands on
is read from nine consecutive bytes that look like a frame, and no byte serves twice
(`accepts_genuine`). What lies behind it is that `sync()` stops at the first three consecutive sync
bytes (`sync_from`), although it restarts its count whenever a byte does not match. -/

namespace LibreXC.SerialLink

open Arduino

/-! ## `sync()` -/

/-- The bytes end in a full run of sync bytes. -/
def EndsInSync (u : List BYTE) : Prop := List.replicate PACK_START_LEN SYNC_BYTE <:+ u

theorem not_endsInSync_of_length_lt {u : List BYTE} (h : u.length < PACK_START_LEN) :
    ¬ EndsInSync u := by
  intro hu
  have hle := hu.length_le
  rw [List.length_replicate] at hle
  omega

/-- **A byte that is no sync byte starts afresh**: what ends in a full run ends in one behind it. -/
theorem endsInSync_append_cons {u v : List BYTE} {b : BYTE} (hb : b ≠ SYNC_BYTE) :
    EndsInSync (u ++ b :: v) ↔ EndsInSync v := by
  have hv : b :: v <:+ u ++ b :: v := List.suffix_append u _
  refine ⟨fun h => ?_, fun h => h.trans ((List.suffix_cons b v).trans hv)⟩
  by_cases hlen : PACK_START_LEN ≤ v.length
  · refine List.suffix_of_suffix_length_le h ((List.suffix_cons b v).trans hv) ?_
    rwa [List.length_replicate]
  · -- the run would reach back to `b`
    have hrun : b :: v <:+ List.replicate PACK_START_LEN SYNC_BYTE := by
      refine List.suffix_of_suffix_length_le hv h ?_
      rw [List.length_replicate, List.length_cons]
      omega
    exact absurd (List.eq_of_mem_replicate (hrun.subset List.mem_cons_self)) hb

/-- **Where `sync()` stops**, entered with `i` bytes matched: behind the shortest prefix that ends in
a full run together with those bytes; it blocks when there is none. -/
theorem sync_from (i : Fin PACK_START_LEN) (line : List BYTE) :
    let matched := List.replicate i.val SYNC_BYTE
    match sync i line with
    | .error _ => ∀ v, v <+: line → ¬ EndsInSync (matched ++ v)
    | .ok rest => ∃ u, line = u ++ rest ∧ EndsInSync (matched ++ u) ∧
        ∀ v, v <+: line → EndsInSync (matched ++ v) → u <+: v := by
  induction line generalizing i with
  | nil =>
      intro matched v hv
      rw [List.prefix_nil.mp hv, List.append_nil]
      refine not_endsInSync_of_length_lt ?_
      rw [List.length_replicate]
      exact i.isLt
  | cons b line ih =>
      intro matched
      have hempty : ¬ EndsInSync (matched ++ []) := by
        refine not_endsInSync_of_length_lt ?_
        rw [List.append_nil, List.length_replicate]
        exact i.isLt
      -- after `b` the count is `j`: the claim is the induction hypothesis one byte later
      have hstay : ∀ j : Fin PACK_START_LEN, sync i (b :: line) = sync j line →
          (∀ v, EndsInSync (matched ++ b :: v) ↔ EndsInSync (List.replicate j.val SYNC_BYTE ++ v)) →
          match sync i (b :: line) with
          | .error _ => ∀ v, v <+: b :: line → ¬ EndsInSync (matched ++ v)
          | .ok rest => ∃ u, b :: line = u ++ rest ∧ EndsInSync (matched ++ u) ∧
              ∀ v, v <+: b :: line → EndsInSync (matched ++ v) → u <+: v := by
        intro j hsync hends
        have hj := ih j
        rw [hsync]
        cases h : sync j line with
        | error w =>
            rw [h] at hj
            intro v hv
            cases v with
            | nil => exact hempty
            | cons a v =>
                obtain ⟨rfl, htail⟩ := List.cons_prefix_cons.mp hv
                exact mt (hends v).mp (hj v htail)
        | ok rest =>
            rw [h] at hj
            obtain ⟨u, hline, hu, hshort⟩ := hj
            refine ⟨b :: u, by rw [hline, List.cons_append], (hends u).mpr hu, fun v hv hv' => ?_⟩
            cases v with
            | nil => exact absurd hv' hempty
            | cons a v =>
                obtain ⟨rfl, htail⟩ := List.cons_prefix_cons.mp hv
                exact List.cons_prefix_cons.mpr ⟨rfl, hshort v htail ((hends v).mp hv')⟩
      by_cases hb : b ≠ SYNC_BYTE
      · refine hstay 0 (by rw [sync, if_pos hb]) fun v => ?_
        rw [endsInSync_append_cons hb]
        rfl
      · obtain rfl : b = SYNC_BYTE := not_not.mp hb
        by_cases hi : i.val + 1 < PACK_START_LEN
        · refine hstay ⟨i.val + 1, hi⟩ (by rw [sync, if_neg hb, dif_pos hi]) fun v => ?_
          rw [List.replicate_succ', List.append_assoc, List.singleton_append]
        · -- the run is complete
          rw [sync, if_neg hb, dif_neg hi]
          refine ⟨[SYNC_BYTE], rfl, ?_, fun v hv hv' => ?_⟩
          · rw [EndsInSync, ← List.replicate_succ', show i.val + 1 = PACK_START_LEN by omega]
          · cases v with
            | nil => exact absurd hv' hempty
            | cons a v =>
                obtain ⟨rfl, -⟩ := List.cons_prefix_cons.mp hv
                exact List.cons_prefix_cons.mpr ⟨rfl, List.nil_prefix⟩

/-! ## One packet -/

/-- The nine bytes of a frame with the given payload. -/
def window (data : Payload) : List BYTE :=
  [SYNC_BYTE, SYNC_BYTE, SYNC_BYTE, data.cmd, data.param, data.cmd ^^^ data.param, END_BYTE, END_BYTE,
    END_BYTE]

/-- `fillBuff` fills the buffer with the next bytes. -/
theorem fillBuff_eq_ok {buff : PartialBuff} {line full rest : List BYTE}
    (h : fillBuff buff line = .ok (full, rest)) :
    buff.val ++ line = full ++ rest ∧ full.length = BUFF_LEN := by
  induction line generalizing buff with
  | nil => cases h
  | cons b line ih =>
      rw [fillBuff] at h
      split at h
      · obtain ⟨happend, hlen⟩ := ih h
        rw [List.append_assoc, List.singleton_append] at happend
        exact ⟨happend, hlen⟩
      · next hfull =>
          obtain ⟨rfl, rfl⟩ := Prod.mk.inj (Except.ok.inj h)
          have := buff.property
          rw [List.length_append, List.length_singleton] at hfull ⊢
          exact ⟨by rw [List.append_assoc, List.singleton_append], by omega⟩

/-- **`receiveData()` reads nine consecutive bytes** behind whatever `sync()` has skipped. -/
theorem receiveData_window {line buff rest : List BYTE} (h : receiveData line = .ok (buff, rest)) :
    ∃ skipped, line = skipped ++ (List.replicate PACK_START_LEN SYNC_BYTE ++ buff) ++ rest ∧
      buff.length = BUFF_LEN := by
  obtain ⟨unread, hs, hf⟩ := receiveData_eq_ok.mp h
  have hsync := sync_from 0 line
  rw [hs] at hsync
  obtain ⟨u, rfl, ⟨skipped, hu⟩, -⟩ := hsync
  obtain ⟨hunread, hlen⟩ := fillBuff_eq_ok hf
  refine ⟨skipped, ?_, hlen⟩
  have hskipped : skipped ++ List.replicate PACK_START_LEN SYNC_BYTE = u := hu
  rw [← hskipped, show unread = buff ++ rest from hunread]
  simp only [List.append_assoc]

/-- **A buffer that passes the check** ends a window with its payload. -/
theorem eq_window_of_checkPacket {buff : List BYTE} (hlen : buff.length = BUFF_LEN)
    (h : checkPacket buff) :
    List.replicate PACK_START_LEN SYNC_BYTE ++ buff = window (payload buff) := by
  match buff, hlen with
  | [b₀, b₁, b₂, b₃, b₄, b₅], _ =>
      obtain ⟨rfl, rfl, rfl, rfl⟩ := (checkPacket_iff _ _ _ _ _ _).mp h
      rfl

/-! ## The whole line -/

/-- **Accepted payloads and their windows**, on a stream of which `n` bytes were consumed before: each
payload is read from the nine bytes consumed last, and no two of these windows overlap. -/
structure Windows (stream : List BYTE) (n : ℕ) (accepted : List (ℕ × Payload)) : Prop where
  genuine : ∀ a ∈ accepted, n + 9 ≤ a.1 ∧ a.1 ≤ stream.length ∧ lastNine stream a.1 = window a.2
  disjoint : accepted.Pairwise fun a b => a.1 + 9 ≤ b.1

/-- Consuming more before the first window changes nothing. -/
theorem Windows.mono {stream : List BYTE} {n m : ℕ} {accepted : List (ℕ × Payload)}
    (h : Windows stream m accepted) (hnm : n ≤ m) : Windows stream n accepted :=
  ⟨fun a ha => ⟨le_trans (Nat.add_le_add_right hnm 9) (h.genuine a ha).1, (h.genuine a ha).2⟩,
    h.disjoint⟩

/-- One more window in front. -/
theorem Windows.cons {stream : List BYTE} {n : ℕ} {a : ℕ × Payload} {accepted : List (ℕ × Payload)}
    (ha : n + 9 ≤ a.1 ∧ a.1 ≤ stream.length ∧ lastNine stream a.1 = window a.2)
    (h : Windows stream a.1 accepted) : Windows stream n (a :: accepted) := by
  constructor
  · exact List.forall_mem_cons.mpr ⟨ha, fun b hb =>
      ⟨by have := (h.genuine b hb).1; omega, (h.genuine b hb).2⟩⟩
  · exact List.pairwise_cons.mpr ⟨fun b hb => (h.genuine b hb).1, h.disjoint⟩

/-- Disjoint windows take nine bytes each. -/
theorem Windows.length_le {stream : List BYTE} {n : ℕ} {accepted : List (ℕ × Payload)}
    (h : Windows stream n accepted) (hn : n ≤ stream.length) :
    n + 9 * accepted.length ≤ stream.length := by
  induction accepted generalizing n with
  | nil => exact hn
  | cons a accepted ih =>
      obtain ⟨hfirst, hlast, -⟩ := h.genuine a List.mem_cons_self
      obtain ⟨hafter, hdisjoint⟩ := List.pairwise_cons.mp h.disjoint
      have hrest : Windows stream a.1 accepted :=
        ⟨fun b hb => ⟨hafter b hb, (h.genuine b (List.mem_cons_of_mem _ hb)).2⟩, hdisjoint⟩
      have := ih hrest hlast
      rw [List.length_cons]
      omega

/-- **`loop()` accepts windows only**, whatever was consumed before. -/
theorem windows_runLoop (before line : List BYTE) :
    Windows (before ++ line) before.length (runLoop before.length line).1 := by
  induction hlen : line.length using Nat.strong_induction_on generalizing before line with
  | _ len ih =>
  subst hlen
  rw [runLoop]
  split
  · exact ⟨fun a ha => absurd ha List.not_mem_nil, List.Pairwise.nil⟩
  · next buff rest hr =>
      have hlt : rest.length < line.length := receiveData_length_lt hr
      obtain ⟨skipped, rfl, hbuff⟩ := receiveData_window hr
      have hnine : (List.replicate PACK_START_LEN SYNC_BYTE ++ buff).length = 9 := by
        rw [List.length_append, List.length_replicate, hbuff]
        rfl
      -- the bytes consumed when the next turn begins
      have hpos : before.length
          + ((skipped ++ (List.replicate PACK_START_LEN SYNC_BYTE ++ buff) ++ rest).length - rest.length)
          = (before ++ skipped).length + 9 := by
        simp only [List.length_append] at hnine ⊢
        omega
      have hconsumed : (before ++ (skipped ++ (List.replicate PACK_START_LEN SYNC_BYTE ++ buff))).length
          = (before ++ skipped).length + 9 := by
        rw [← List.append_assoc, List.length_append, hnine]
      have hnext := ih rest.length hlt
        (before ++ (skipped ++ (List.replicate PACK_START_LEN SYNC_BYTE ++ buff))) rest rfl
      rw [hconsumed, List.append_assoc] at hnext
      rw [hpos]
      dsimp only
      split
      · next hcheck =>
          refine Windows.cons ⟨?_, ?_, ?_⟩ hnext
          · simp only [List.length_append]
            omega
          · simp only [List.length_append] at hnine ⊢
            omega
          · rw [← eq_window_of_checkPacket hbuff hcheck, lastNine, ← List.append_assoc, ← List.append_assoc,
              List.append_assoc, List.take_length_add_append, Nat.add_sub_cancel, List.drop_left,
              List.take_left' hnine]
      · refine hnext.mono ?_
        rw [List.length_append]
        omega

/-- **What the receiver does with a line**, started in `sync()` with no byte matched. -/
structure AcceptsGenuine (line : List BYTE) : Prop where
  /-- `sync()` returns behind the shortest prefix of the unread bytes that ends in a full run. -/
  sync_returns : ∀ unread rest, unread <:+ line → sync 0 unread = .ok rest →
    ∃ u, unread = u ++ rest ∧ EndsInSync u ∧ ∀ v, v <+: unread → EndsInSync v → u <+: v
  /-- It skips no run when it waits for more. -/
  sync_waits : ∀ unread w, unread <:+ line → sync 0 unread = .error w →
    ∀ v, v <+: unread → ¬ EndsInSync v
  /-- Each payload is read from nine consecutive bytes, a frame with this payload. -/
  genuine : ∀ a ∈ (runLoop 0 line).1,
    9 ≤ a.1 ∧ a.1 ≤ line.length ∧ lastNine line a.1 = window a.2
  /-- No byte serves twice, and the payloads come in the order of their bytes. -/
  disjoint : (runLoop 0 line).1.Pairwise fun a b => a.1 + 9 ≤ b.1
  /-- There are at most as many payloads as nine bytes for each allow. -/
  few : (runLoop 0 line).1.length ≤ line.length / 9

/-- **The receiver accepts only genuine frames**, on every line. -/
theorem accepts_genuine (line : List BYTE) : AcceptsGenuine line := by
  have hwindows : Windows line 0 (runLoop 0 line).1 := windows_runLoop [] line
  constructor
  · intro unread rest _ h
    have hsync := sync_from 0 unread
    rw [h] at hsync
    exact hsync
  · intro unread w _ h
    have hsync := sync_from 0 unread
    rw [h] at hsync
    exact hsync
  · intro a ha
    obtain ⟨hfirst, hlast, hwindow⟩ := hwindows.genuine a ha
    exact ⟨by omega, hlast, hwindow⟩
  · exact hwindows.disjoint
  · have := hwindows.length_le (Nat.zero_le _)
    omega

end LibreXC.SerialLink
