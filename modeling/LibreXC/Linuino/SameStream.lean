import LibreXC.Linuino.Data
import LibreXC.Linuino.Server

/-! # All clients see the same stream

`broadcast` encodes the text anew for every subscriber, but it is the same text: either the encoding
fails at the first subscriber, before anything is sent, or every subscriber gets the payload once. The
subscriber list holds no client twice and a client keeps its place in it until it closes, whatever
other clients do. So two clients that are open throughout a part of a run are sent the same payloads
in it (`same_stream`). -/

namespace LibreXC.Linuino

open Ascii Python2 TransitionSystem

variable {Client : Type} [DecidableEq Client] {config : Credentials} {order : KeyOrder}
  {s s' t t' : Server Client} {e : Event Client}

/-- **An event broadcasts at most one payload**, to the subscribers it finds. -/
theorem Server.sent_step (hstep : s.step config order e = some s') :
    ∃ payload : Option Str, s'.world.sent
      = s.world.sent ++ payload.toList.flatMap fun p => s.world.subscribers.map (·, p) := by
  have hnone : s'.world.sent = s.world.sent → ∃ payload : Option Str, s'.world.sent
      = s.world.sent ++ payload.toList.flatMap fun p => s.world.subscribers.map (·, p) := by
    intro heq
    refine ⟨none, ?_⟩
    rw [heq, Option.toList_none, List.flatMap_nil, List.append_nil]
  cases e with
  | connect client headers =>
      rw [step] at hstep
      split at hstep
      · by_cases hp : Presents config headers
        · rw [onConnect_of_presents hp] at hstep
          obtain rfl := Option.some.inj hstep
          refine hnone ?_
          dsimp only [add_client]
          split <;> rfl
        · rw [onConnect_of_not_presents hp] at hstep
          obtain rfl := Option.some.inj hstep
          exact hnone rfl
      · cases hstep
  | message client payload isBinary =>
      rw [step] at hstep
      split at hstep
      · obtain rfl := Option.some.inj hstep
        obtain ⟨answer, hanswer⟩ := onMessage_broadcasts order payload isBinary s.world
        exact ⟨answer, hanswer.sent⟩
      · cases hstep
  | close client reason =>
      rw [step] at hstep
      split at hstep
      · cases hstep
      · obtain rfl := Option.some.inj hstep
        refine hnone ?_
        by_cases hp : reason.Printable
        · rw [exec_onClose_of_printable hp]
        · rw [exec_onClose_of_not_printable hp]
  | update json =>
      obtain rfl := Option.some.inj hstep
      exact ⟨_, (broadcast_broadcasts (some json) s.world).sent⟩
  | files logs =>
      obtain rfl := Option.some.inj hstep
      exact hnone rfl
  | device opens =>
      obtain rfl := Option.some.inj hstep
      exact hnone rfl

/-- The messages sent from one state to a later one. -/
def messages (s s' : Server Client) : List (Client × Str) :=
  s'.world.sent.drop s.world.sent.length

omit [DecidableEq Client] in
theorem messages_eq {new : List (Client × Str)} (h : s'.world.sent = s.world.sent ++ new) :
    messages s s' = new := by
  rw [messages, h, List.drop_left]

/-- The client has been accepted before the part `mid` of a run and is not closed until its end. -/
structure OpenThroughout (config : Credentials) (pre mid : List (Event Client)) (client : Client) :
    Prop where
  accepted : Authenticated config pre client
  not_closed : ¬ Closed (pre ++ mid) client

/-- **A subscriber is sent the payload of an event once, or nothing when there is none.** -/
theorem received_messages {client : Client} (hclient : client ∈ s.world.subscribers)
    (hnodup : s.world.subscribers.Nodup) {payload : Option Str}
    (hsent : s'.world.sent
      = s.world.sent ++ payload.toList.flatMap fun p => s.world.subscribers.map (·, p)) :
    received client (messages s s') = payload.toList := by
  rw [messages_eq hsent]
  exact received_rounds hnodup hclient payload.toList

/-! ## A part of a run -/

/-- **A client that is open throughout stays subscribed**, and the list keeps no client twice. -/
theorem subscribed_throughout {w : World Client} {pre before rest : List (Event Client)}
    {client : Client} (hpre : run (Server.step config order) (.init w) pre = some s)
    (hrun : run (Server.step config order) s before = some t)
    (hopen : OpenThroughout config pre (before ++ rest) client) :
    client ∈ t.world.subscribers ∧ t.world.subscribers.Nodup := by
  have hkept : Kept config pre s :=
    run_history (Kept config) (fun h s e s' hk hstep => hk.step hstep) (kept_init config w) hpre
  have hnever : ∀ reason, Event.close client reason ∉ pre ++ (before ++ rest) :=
    fun reason hmem => hopen.not_closed ⟨reason, hmem⟩
  have hstart : client ∈ s.world.subscribers :=
    hkept.of_not_closed client hopen.accepted fun ⟨reason, hmem⟩ =>
      hnever reason (List.mem_append_left _ hmem)
  have halong : Along (Server.step config order) (fun _ e => ∀ reason, e ≠ .close client reason)
      s before := by
    refine along_of_forall_mem fun e he _ reason heq => hnever reason ?_
    exact List.mem_append_right _ (List.mem_append_left _ (heq ▸ he))
  exact run_invariant_along
    (fun t : Server Client => client ∈ t.world.subscribers ∧ t.world.subscribers.Nodup)
    (fun t e t' h hne hstep => ⟨Server.mem_step hstep h.1 hne, Server.nodup_step hstep h.2⟩)
    ⟨hstart, hkept.nodup⟩ halong hrun

/-- **Two clients see the same stream** in a part of a run. -/
structure SameStream (config : Credentials) (order : KeyOrder) (s s' : Server Client)
    (mid : List (Event Client)) (a b : Client) : Prop where
  /-- Every event broadcasts one payload or none, and it reaches both clients once. -/
  once : ∀ before e rest t t', mid = before ++ e :: rest →
    run (Server.step config order) s before = some t → t.step config order e = some t' →
    ∃ payload : Option Str,
      messages t t' = (payload.toList.flatMap fun p => t.world.subscribers.map (·, p)) ∧
        received a (messages t t') = payload.toList ∧ received b (messages t t') = payload.toList
  /-- Over the whole part they are sent the same payloads in the same order. -/
  same : received a (messages s s') = received b (messages s s')

/-- **All clients see the same stream**: in every part of a run of the server, any two clients that
are open throughout are sent the same. -/
theorem same_stream {w : World Client} {pre mid : List (Event Client)} {a b : Client}
    (hpre : run (Server.step config order) (.init w) pre = some s)
    (hmid : run (Server.step config order) s mid = some s')
    (ha : OpenThroughout config pre mid a) (hb : OpenThroughout config pre mid b) :
    SameStream config order s s' mid a b := by
  -- what one event of the part sends, to either of the two
  have hevent : ∀ client, OpenThroughout config pre mid client → ∀ before e rest t t',
      mid = before ++ e :: rest → run (Server.step config order) s before = some t →
      t.step config order e = some t' → ∀ payload : Option Str,
      t'.world.sent = t.world.sent ++ (payload.toList.flatMap fun p => t.world.subscribers.map (·, p)) →
      received client (messages t t') = payload.toList := by
    intro client hopen before e rest t t' hsplit hrun hstep payload hsent
    obtain ⟨hmem, hnodup⟩ := subscribed_throughout hpre hrun (hsplit ▸ hopen)
    exact received_messages hmem hnodup hsent
  constructor
  · intro before e rest t t' hsplit hrun hstep
    obtain ⟨payload, hsent⟩ := Server.sent_step hstep
    exact ⟨payload, messages_eq hsent, hevent a ha before e rest t t' hsplit hrun hstep payload hsent,
      hevent b hb before e rest t t' hsplit hrun hstep payload hsent⟩
  · -- by induction on the events taken so far: what was sent on top is the same for both
    have hsofar : ∀ taken t, taken <+: mid → run (Server.step config order) s taken = some t →
        ∃ new, t.world.sent = s.world.sent ++ new ∧ received a new = received b new := by
      intro taken
      induction taken using List.reverseRecOn with
      | nil =>
          intro t _ hrun
          obtain rfl := Option.some.inj hrun
          exact ⟨[], (List.append_nil _).symm, rfl⟩
      | append_singleton taken e ih =>
          intro t' hprefix hrun
          obtain ⟨t, hrun, hstep⟩ := run_concat_eq_some.mp hrun
          obtain ⟨rest, hsplit⟩ := hprefix
          rw [List.append_assoc, List.singleton_append] at hsplit
          obtain ⟨new, hnew, hsame⟩ := ih t ⟨e :: rest, hsplit⟩ hrun
          obtain ⟨payload, hsent⟩ := Server.sent_step hstep
          have hreceived := fun client hopen =>
            hevent client hopen taken e rest t t' hsplit.symm hrun hstep payload hsent
          rw [messages_eq hsent] at hreceived
          refine ⟨_, by rw [hsent, hnew, List.append_assoc], ?_⟩
          rw [received_append, received_append, hsame, hreceived a ha, hreceived b hb]
    obtain ⟨new, hnew, hsame⟩ := hsofar mid s' List.prefix_rfl hmid
    rw [messages_eq hnew]
    exact hsame

/-- Two clients that log in one after the other are both sent the line `{}`. -/
theorem same_stream_braces : ∃ (config : Credentials) (order : KeyOrder) (w : World Bool)
    (pre : List (Event Bool)) (s s' : Server Bool),
    run (Server.step config order) (.init w) pre = some s ∧
      run (Server.step config order) s [.update (str "\x7b\x7d")] = some s' ∧
      received true (messages s s') = [str "\x7b\x7d"] ∧
      SameStream config order s s' [.update (str "\x7b\x7d")] true false := by
  let config : Credentials := ⟨str "u", str "p"⟩
  let order : KeyOrder := ⟨valid_cmds, .refl _⟩
  let w : World Bool := ⟨[], ⟨[], List.nodup_nil⟩, true, [], []⟩
  let headers : Headers := headersOf (unicode "u") (unicode "p")
  let s : Server Bool := ⟨{ w with subscribers := [true, false] }, fun _ => .opened⟩
  have hpresents : Presents config headers :=
    presents_headersOf (by decide +kernel) (by decide +kernel)
  have hpre : run (Server.step config order) (.init w) [.connect true headers, .connect false headers]
      = some s := by
    have hphase : Function.update (Function.update (fun _ => Phase.fresh) true .opened) false .opened
        = fun _ => .opened := by
      funext client
      cases client <;> rfl
    rw [run_cons_eq_some]
    refine ⟨⟨{ w with subscribers := [true] }, Function.update (fun _ => .fresh) true .opened⟩, ?_, ?_⟩
    · rw [Server.step, onConnect_of_presents hpresents]
      rfl
    · rw [run_cons, Server.step, onConnect_of_presents hpresents]
      exact congrArg (fun phase => some (Server.mk _ phase)) hphase
  have hopen : ∀ client, OpenThroughout config [.connect true headers, .connect false headers]
      [.update (str "\x7b\x7d")] client := by
    intro client
    refine ⟨⟨headers, ?_, hpresents⟩, ?_⟩
    · cases client <;> simp
    · rintro ⟨reason, hmem⟩
      simp at hmem
  have hencode : encodeJson (some (str "\x7b\x7d")) = .ok (str "\x7b\x7d") :=
    encode_of_isAscii (by decide)
  have hmid : run (Server.step config order) s [.update (str "\x7b\x7d")]
      = some { s with world := { s.world with sent := [true, false].map (·, str "\x7b\x7d") } } := by
    rw [run_cons, Server.step, Py.exec_of_ok (broadcast_of_ok hencode s.world)]
    rfl
  exact ⟨config, order, w, _, s, _, hpre, hmid, rfl,
    same_stream hpre hmid (hopen true) (hopen false)⟩

end LibreXC.Linuino
