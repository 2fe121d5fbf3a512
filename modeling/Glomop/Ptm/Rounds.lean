import Glomop.Ptm.Changes

/-!
# What one round of the event loop can do

`Round s e s'` lists the ways in which an event can take a PTM from `s` to `s'`, with what the code
has checked on the way; `round_of_step` says that the list is complete.  Everything that is proved
about runs of a PTM is proved by going through this list once.

Most events do nothing beyond waking and launching (`Round.quiet`): beacons, timers, packets that
are refused, and connections of distillers that break.
-/

namespace Glomop.Ptm

open Lib Prog Relation PTMPacketType

/-! ## Packets that are refused -/

section Refusing

open IStream

def Refusing {α : Type} (x : ReadM (Option α)) : Prop :=
  ∀ ⦃s₀ s s' : IStream⦄, s₀.isGood = true → Reads s₀ s → x s = some (none, s') →
    IsFailure s'.status

variable {α β : Type}

lemma Refusing.bind {x : ReadM α} {f : α → ReadM (Option β)} (hx : Within Reads x)
    (hf : ∀ a, Refusing (f a)) : Refusing (x >>= f) := by
  intro s0 s s' hg hr h
  obtain ⟨a, s1, hre, hrs⟩ := bind_eq_some.mp h
  exact hf a hg (trans_of Reads hr (hx hre)) hrs

lemma Refusing.check {f : IStream → ReadM (Option β)} (hf : ∀ s, Refusing (f s)) :
    Refusing (do let s ← get; if s.isGood = false then return none else f s) := by
  intro s0 s s' hg hr h
  simp only [ite_eq_some, run_iff] at h
  rcases h with ⟨hb, _, rfl⟩ | ⟨_, h⟩
  · exact hr.isFailure hg hb
  · exact hf _ hg hr h

lemma Refusing.refuse : Refusing (refuse .errFormattingError : ReadM (Option α)) := by
  intro s0 s s' _ _ h
  simp only [Ptm.refuse, run_iff] at h
  obtain ⟨_, rfl⟩ := h
  exact .inl rfl

lemma Refusing.accept (a : α) : Refusing (return some a) := by
  intro s0 s s' _ _ h
  cases (pure_eq_some.mp h).1

lemma Refusing.finish (a : α) : Refusing (finish a) := by
  refine .check fun s => ?_
  split_ifs
  · exact .refuse
  · exact .accept a

lemma refusing_parseRegister : Refusing parseRegister := by
  refine .bind (reads_delimit _) fun _ => .bind (reads_inputRemoteID _) fun distAddress =>
    .bind reads_skip fun _ => .check fun _ => ?_
  split_ifs
  · exact .refuse
  refine .bind (reads_delimit _) fun _ => .bind (reads_inputType _) fun distillerType =>
    .bind reads_skip fun _ => .check fun _ => ?_
  refine .bind (reads_delimit _) fun _ => .bind (reads_inputUInt32 _) fun sleepStatus =>
    .bind reads_skip fun _ => .check fun _ => ?_
  exact .bind (reads_delimit _) fun _ => .bind (reads_inputUInt32 _) fun restartFlag =>
    .bind reads_skip fun _ => .finish _

lemma refusing_parseReregister : Refusing parseReregister :=
  .bind (reads_delimit _) fun _ => .bind (reads_inputType _) fun distillerType =>
    .bind reads_skip fun _ => .finish distillerType

lemma refusing_parseAskForDistiller : Refusing parseAskForDistiller :=
  .bind (reads_delimit _) fun _ => .bind (reads_setW _) fun _ =>
    .bind (reads_inputString _) fun type => .bind reads_skip fun _ => .finish type

lemma refusing_parseLoad : Refusing parseLoad :=
  .bind (reads_delimit _) fun _ => .bind (reads_inputLoad _) fun load =>
    .bind reads_skip fun _ => .finish load

end Refusing

/-! ## The list -/

/-- The launch records after a distiller reported a load that makes `newLoad` its average: the total
of its launch record is adjusted, unless that has no limit. -/
def reported (records : Heap LaunchRecord) (r : DistillerRecord) (newLoad : Load) :
    Heap LaunchRecord :=
  match r.launchRecord with
  | none => records
  | some l =>
    match records.cell l with
    | none => records
    | some record =>
      if record.autoLaunchLimit = 0 then records
      else records.set l
        { record with totalLoad := (record.totalLoad.sub r.load).add newLoad }

def State.reportLoad (s : State) (d : ℕ) (r : DistillerRecord) (load : Load) : State :=
  { s.setDistiller d (r.report load) with
    launchRecords := reported s.launchRecords r (r.report load).load }

def Registration.record (reg : Registration) (c : ℕ) (found : Option (ℕ × LaunchRecord)) :
    DistillerRecord :=
  freshRecord c reg.distAddress reg.distillerType reg.sleepStatus reg.restartFlag found

def Found (s : State) (found : Option (ℕ × LaunchRecord)) : Prop :=
  ∀ l record, found = some (l, record) → l ∈ s.launchDB ∧ s.launchRecords.cell l = some record

inductive Round (s : State) : Event → State → Prop
  | quiet (e : Event) (s' : State) : Woken s s' → Round s e s'
  | accepted : Round s .accept s.acceptConnection
  | closed (c : ℕ) (s₁ s₂ : State) :
      s.connections.cell c = some ⟨none⟩ → Env s s₁ → removeBrokenConnection c s₁ = some ((), s₂) →
      Round s (.readError c .errSocketEOF) (s₂.closeConnection c)
  | registered (c : ℕ) (p : Packet) (past : UInt8) (reg : Registration) (stream : IStream)
      (found : Option (ℕ × LaunchRecord)) (s₁ s₂ : State) :
      PTMPacketType.ofWord p.type = some .pktRegisterDistiller →
      s.connections.cell c = some ⟨none⟩ →
      parseRegister (IStream.ofPacket p past s.status) = some (some reg, stream) →
      Env s s₁ → Found s₁ found →
      Launches ((s₁.createDistiller (reg.record c found)).addDistiller s₁.distillers.next) s₂ →
      Round s (.packet c p past) (s₂.setRecord c (some s₁.distillers.next))
  /-- A distiller registers with an address that is taken: it is dropped, with its connection. -/
  | rejected (c : ℕ) (p : Packet) (past : UInt8) (reg : Registration)
      (found : Option (ℕ × LaunchRecord)) (s₁ s₂ s₃ s' : State) :
      PTMPacketType.ofWord p.type = some .pktRegisterDistiller →
      s.connections.cell c = some ⟨none⟩ →
      Env s s₁ → Found s₁ found →
      Env ((s₁.createDistiller (reg.record c found)).destroyDistiller s₁.distillers.next
        (reg.record c found)) s₂ →
      removeBrokenConnection c s₂ = some ((), s₃) → Env (s₃.closeConnection c) s' →
      Round s (.packet c p past) s'
  | deregistered (c : ℕ) (p : Packet) (past : UInt8) (d : ℕ) (r : DistillerRecord) :
      s.connections.cell c = some ⟨some d⟩ → s.distillers.cell d = some r →
      Round s (.packet c p past)
        (((s.removeDistiller d).destroyDistiller d r).setRecord c none)
  | reregistered (c : ℕ) (p : Packet) (past : UInt8) (d : ℕ) (r : DistillerRecord)
      (type : DistillerType) (stream : IStream) (s₁ : State) :
      PTMPacketType.ofWord p.type = some .pktReregisterDistiller →
      s.connections.cell c = some ⟨some d⟩ → s.distillers.cell d = some r →
      parseReregister (IStream.ofPacket p past s.status) = some (some type, stream) →
      Env s s₁ →
      Round s (.packet c p past)
        ((((s₁.removeDistiller d).setDistiller d { r with type := type }).addDistiller d).setRecord
          c (some d))
  | asked (c : ℕ) (p : Packet) (past : UInt8) (s₁ s₂ s' : State) :
      PTMPacketType.ofWord p.type = some .pktAskForDistiller →
      s.connections.cell c = some ⟨none⟩ →
      Env s s₁ → Woken (s₁.ask ⟨c, p.requestReplyID, s.asked.length⟩) s₂ →
      Requested (some ⟨c, p.requestReplyID, s.asked.length⟩) s₂ s' →
      Round s (.packet c p past) s'
  | loaded (c : ℕ) (p : Packet) (past : UInt8) (d : ℕ) (r : DistillerRecord) (load : Load)
      (s₁ s' : State) :
      PTMPacketType.ofWord p.type = some .pktDistillerLoad →
      s.connections.cell c = some ⟨some d⟩ → s.distillers.cell d = some r →
      Env s s₁ → Woken (s₁.reportLoad d r load) s' →
      Round s (.packet c p past) s'
  | reloaded (options : Options) (rexecUpdated : Bool) (b : Bool) (s₁ s' : State) :
      update options.entries s = some (b, s₁) → Env s₁ s' →
      Round s (.reload options rexecUpdated) s'

variable {b : Bool} {c d rounds : ℕ} {e : Event} {p : Packet} {past : UInt8} {result : SelectResult}
  {s s' : State}

lemma Round.of_env (h : Env s s') : Round s e s' := .quiet e s' h.launches.woken

/-! ## The handlers -/

def Handled (s : State) (e : Event) (b : Bool) (s' : State) : Prop :=
  (b = true ∧ Round s e s') ∨ (b = false ∧ Env s s' ∧ s'.status ≠ .errSocketEOF)

lemma handled_of_fail {errorCode : Errors} {s1 : State} (henv : Env s s1)
    (hne : errorCode ≠ .errSocketEOF) (h : fail errorCode s1 = some (b, s')) :
    Handled s e b s' := by
  refine .inr ⟨?_, trans_of Env henv (within_fail _ h), ?_⟩
  · simp only [fail, run_iff] at h
    obtain ⟨_, _, _, rfl, _⟩ := h
    rfl
  · simp only [fail, setStatus, run_iff] at h
    obtain ⟨_, rfl⟩ := h
    exact hne

lemma handled_of_parsing {α : Type} {x : ReadM (Option α)} {act : α → M Bool} (hx : Refusing x)
    (h : parsing p past x act s = some (b, s'))
    (ha : ∀ a stream, x (IStream.ofPacket p past s.status) = some (some a, stream) →
      act a { s with status := stream.status } = some (b, s') → Handled s e b s') :
    Handled s e b s' := by
  simp only [parsing, runStream, bind_eq_some, Option.map_eq_some_iff] at h
  obtain ⟨_, _, ⟨⟨parsed, stream⟩, hp, hpa⟩, h⟩ := h
  cases hpa
  cases parsed with
  | some a => exact ha a stream hp h
  | none =>
    cases h
    refine .inr ⟨rfl, .mk _ _ _, ?_⟩
    intro he
    have hf := hx rfl (refl_of IStream.Reads _) hp
    rw [show stream.status = .errSocketEOF from he] at hf
    rcases hf with hf | hf <;> cases hf

lemma handled_of_onDistiller {act : ℕ → M Bool} (h : onDistiller c act s = some (b, s'))
    (ha : ∀ d, s.connections.cell c = some ⟨some d⟩ → act d s = some (b, s') → Handled s e b s') :
    Handled s e b s' := by
  simp only [onDistiller, derefConnection, run_iff] at h
  obtain ⟨⟨record⟩, hc, h⟩ := h
  cases record with
  | none => exact handled_of_fail (Env.refl _) (by decide) h
  | some d => exact ha d hc h

lemma handled_of_onFrontEnd {act : M Bool} (h : onFrontEnd c act s = some (b, s'))
    (ha : s.connections.cell c = some ⟨none⟩ → act s = some (b, s') → Handled s e b s') :
    Handled s e b s' := by
  simp only [onFrontEnd, derefConnection, run_iff] at h
  obtain ⟨⟨record⟩, hc, h⟩ := h
  cases record with
  | some d => exact handled_of_fail (Env.refl _) (by decide) h
  | none => exact ha hc h

lemma register_spec (h : register d s = some (b, s')) :
    (b = true ∧ s' = s.addDistiller d) ∨
      (b = false ∧ s' = { s with status := .errDuplicateIndexEntry }) := by
  simp only [register, derefDistiller, run_iff] at h
  obtain ⟨_, _, found, _, h⟩ := h
  cases found with
  | none =>
    simp only [run_iff] at h
    obtain ⟨rfl, rfl⟩ := h
    exact .inl ⟨rfl, rfl⟩
  | some _ =>
    simp only [setStatus, run_iff] at h
    obtain ⟨rfl, rfl⟩ := h
    exact .inr ⟨rfl, rfl⟩

lemma handled_of_registerDistiller {reg : Registration} {stream : IStream}
    (ht : ofWord p.type = some .pktRegisterDistiller)
    (hc : s.connections.cell c = some ⟨none⟩)
    (hp : parseRegister (IStream.ofPacket p past s.status) = some (some reg, stream))
    (h : registerDistiller rounds c p.requestReplyID reg { s with status := stream.status } =
      some (b, s')) : Handled s (.packet c p past) b s' := by
  have henv : Env s { s with status := stream.status } := .mk _ _ _
  generalize { s with status := stream.status } = s1 at h henv
  simp only [registerDistiller, derefConnection, ite_eq_some, run_iff] at h
  obtain ⟨d, s2, hn, registered, s3, hre, h⟩ := h
  obtain ⟨found, hf, rfl, rfl⟩ := newDistillerRecord_spec hn
  rcases register_spec hre with ⟨rfl, rfl⟩ | ⟨rfl, rfl⟩
  · simp only [true_and, not_true_eq_false, false_and, or_false] at h
    obtain ⟨replied, s4, hrp, h⟩ := h
    obtain ⟨rfl, hl⟩ := sendReplyReceivedEvent_spec hrp
    simp only [true_and, not_true_eq_false, false_and, or_false] at h
    obtain ⟨_, _, rfl, rfl⟩ := h
    exact .inl ⟨rfl, .registered c p past reg stream found s1 _ ht hc hp henv hf hl⟩
  · simp only [Bool.false_eq_true, false_and, not_false_eq_true, true_and, false_or,
      not_true_eq_false, or_false] at h
    obtain ⟨_, s4, hd, _, s5, hb, _, s6, hs, rfl, rfl⟩ := h
    obtain ⟨r, hr, rfl⟩ := deleteDistillerRecord_spec hd
    obtain rfl : reg.record c found = r := Option.some.inj (Heap.alloc_cell_next.symm.trans hr)
    have hb := (evConnectionBroken_spec (within_wakeSleepingDistiller rounds) hb).2
    rcases hb with ⟨d, hc', _⟩ | ⟨_, s7, _, hrm, rfl⟩
    · -- the connection is not bound yet
      cases henv
      cases hc.symm.trans hc'
    · exact .inl ⟨rfl, .rejected c p past reg found s1 _ s7 _ ht hc henv hf (.mk _ _ _)
        hrm (within_setStatus _ hs)⟩

lemma handled_of_deregisterDistiller (hc : s.connections.cell c = some ⟨some d⟩)
    (h : deregisterDistiller c d s = some (b, s')) : Handled s (.packet c p past) b s' := by
  simp only [deregisterDistiller, deregister, derefDistiller, run_iff] at h
  obtain ⟨_, _, _, _, hd, rfl, rfl⟩ := h
  obtain ⟨r, hr, rfl⟩ := deleteDistillerRecord_spec hd
  exact .inl ⟨rfl, .deregistered c p past d r hc hr⟩

lemma handled_of_reregisterDistiller {type : DistillerType} {stream : IStream}
    (ht : ofWord p.type = some .pktReregisterDistiller)
    (hc : s.connections.cell c = some ⟨some d⟩)
    (hp : parseReregister (IStream.ofPacket p past s.status) = some (some type, stream))
    (h : reregisterDistiller rounds c d type { s with status := stream.status } = some (b, s')) :
    Handled s (.packet c p past) b s' := by
  have henv : Env s { s with status := stream.status } := .mk _ _ _
  simp only [reregisterDistiller, deregister, derefDistiller, ite_eq_some, run_iff] at h
  obtain ⟨_, _, r, hr, registered, s1, hre, h⟩ := h
  rcases register_spec hre with ⟨rfl, rfl⟩ | ⟨rfl, rfl⟩
  · simp only [true_and, not_true_eq_false, false_and, or_false] at h
    obtain ⟨rfl, rfl⟩ := h
    exact .inl ⟨rfl, .reregistered c p past d r type stream _ ht hc hr hp henv⟩
  · simp only [Bool.false_eq_true, false_and, not_false_eq_true, true_and, false_or,
      not_true_eq_false, or_false] at h
    obtain ⟨_, _, hd, _, _, hb, _⟩ := h
    -- the connection is still bound to the record just deleted, which `EvConnectionBroken` reads
    obtain ⟨r', hr', rfl⟩ := deleteDistillerRecord_spec hd
    simp only [evConnectionBroken, derefConnection, run_iff] at hb
    obtain ⟨connection, hc', hb⟩ := hb
    obtain rfl : ⟨some d⟩ = connection := Option.some.inj (hc.symm.trans hc')
    simp only [dropDistiller, deregister, derefDistiller, run_iff] at hb
    obtain ⟨_, hg, _⟩ := hb
    cases Heap.free_cell_self.symm.trans hg

lemma handled_of_evAskForDistiller {type : DistillerType} {s1 : State}
    (hn : s.distillerDB.Nodup) (ht : ofWord p.type = some .pktAskForDistiller)
    (hc : s.connections.cell c = some ⟨none⟩) (henv : Env s s1)
    (h : evAskForDistiller rounds type ⟨c, p.requestReplyID, s.asked.length⟩ s1 = some (b, s')) :
    b = true ∧ Round s (.packet c p past) s' := by
  have hn1 : s1.distillerDB.Nodup := by
    cases henv
    exact hn
  simp only [evAskForDistiller, ite_eq_some, run_iff] at h
  obtain ⟨list, _, h⟩ := h
  have hr := fun s2 => Round.asked (s := s) c p past s1 s2 s' ht hc henv
  rcases h with ⟨_, woken, s2, hwa, h⟩ | ⟨_, h⟩
  · have hw := within_wakeSleepingDistiller rounds type hwa hn1
    cases woken with
    | none =>
      obtain ⟨rfl, hre⟩ : b = true ∧ Requested (some _) s2 s' :=
        ⟨tryToLaunch_true h, requested_of_tryToLaunch h⟩
      exact ⟨rfl, hr s2 hw hre⟩
    | some d =>
      obtain ⟨rfl, ha⟩ := askForDistillerReply_spec h
      exact ⟨rfl, hr s2 hw ⟨s2, _, .refl, .answered s2 _ _, ha.launches⟩⟩
  · obtain ⟨rfl, ha⟩ := askForDistillerReply_spec h
    exact ⟨rfl, hr _ ⟨.refl, fun _ hd => hd⟩ ⟨_, _, .refl, .answered _ _ _, ha.launches⟩⟩

lemma woken_of_updateDistiller {load : Load} {u : Unit} (hn : s.distillerDB.Nodup)
    (h : updateDistiller rounds d load s = some (u, s')) :
    ∃ r, s.distillers.cell d = some r ∧ Woken (s.reportLoad d r load) s' := by
  simp only [updateDistiller, derefDistiller, run_iff] at h
  obtain ⟨r, hr, h⟩ := h
  refine ⟨r, hr, ?_⟩
  unfold State.reportLoad reported
  cases hl : r.launchRecord with
  | none =>
    rw [hl] at h
    cases h
    exact ⟨.refl, fun _ hd => hd⟩
  | some l =>
    simp only [hl, updateLoad, derefLaunch, ite_eq_some, run_iff] at h
    obtain ⟨record, hre, h⟩ := h
    have hr' : s.launchRecords.cell l = some record := hre
    simp only [hr']
    rcases h with ⟨hli, _, rfl⟩ | ⟨hli, h⟩
    · rw [if_pos hli]
      exact ⟨.refl, fun _ hd => hd⟩
    · rw [if_neg hli]
      rcases h with ⟨_, hla⟩ | ⟨_, _, rfl⟩
      · exact within_tryToAutoLaunch rounds l hla hn
      · exact ⟨.refl, fun _ hd => hd⟩

lemma handled_of_evPacketReceived (hn : s.distillerDB.Nodup)
    (h : evPacketReceived rounds c p past s = some (b, s')) :
    Handled s (.packet c p past) b s' := by
  unfold evPacketReceived at h
  cases ht : ofWord p.type with
  | none =>
    rw [ht] at h
    exact handled_of_fail (Env.refl _) (by decide) h
  | some type =>
    rw [ht] at h
    cases type with
    | pktRegisterDistiller =>
      refine handled_of_onFrontEnd h fun hc h => handled_of_parsing refusing_parseRegister h ?_
      intro reg stream hp h
      exact handled_of_registerDistiller ht hc hp h
    | pktDeregisterDistiller =>
      refine handled_of_onDistiller h fun d hc h => ?_
      rcases ite_eq_some.mp h with ⟨_, h⟩ | ⟨_, h⟩
      · exact handled_of_fail (Env.refl _) (by decide) h
      · exact handled_of_deregisterDistiller hc h
    | pktReregisterDistiller =>
      refine handled_of_onDistiller h fun d hc h =>
        handled_of_parsing refusing_parseReregister h ?_
      intro type stream hp h
      exact handled_of_reregisterDistiller ht hc hp h
    | pktAskForDistiller =>
      refine handled_of_onFrontEnd h fun hc h => ?_
      rcases ite_eq_some.mp h with ⟨_, h⟩ | ⟨_, h⟩
      · exact handled_of_fail (Env.refl _) (by decide) h
      · refine handled_of_parsing refusing_parseAskForDistiller h ?_
        intro type stream _ h
        simp only [run_iff] at h
        exact .inl (handled_of_evAskForDistiller hn ht hc (.mk _ _ _) h)
    | pktAskForUnicastBeacon =>
      simp only [run_iff] at h
      obtain ⟨_, _, hb, rfl, rfl⟩ := h
      exact .inl ⟨rfl, .of_env (within_beacon c hb)⟩
    | pktDistillerLoad =>
      refine handled_of_onDistiller h fun d hc h => handled_of_parsing refusing_parseLoad h ?_
      intro load stream _ h
      simp only [run_iff] at h
      obtain ⟨_, _, hu, rfl, rfl⟩ := h
      obtain ⟨r, hr, hw⟩ := woken_of_updateDistiller (by exact hn) hu
      exact .inl ⟨rfl, .loaded c p past d r load _ _ ht hc hr (.mk _ _ _) hw⟩
    | _ => exact handled_of_fail (Env.refl _) (by decide) h

/-! ## The event loop -/

lemma round_of_evSelect {received broken : M Bool}
    (hr : ∀ b s1, received s = some (b, s1) → Handled s e b s1)
    (h : evSelect received broken s = some (result, s')) : Round s e s' := by
  simp only [evSelect, handleSelect, ite_eq_some, run_iff] at h
  obtain ⟨b, s1, hb, h⟩ := h
  rcases hr b s1 hb with ⟨rfl, hro⟩ | ⟨rfl, henv, hne⟩
  · rcases h with ⟨_, _, rfl⟩ | ⟨hf, _⟩
    · exact hro
    · exact (hf rfl).elim
  · rcases h with ⟨ht, _⟩ | ⟨_, h⟩
    · cases ht
    · refine .of_env (trans_of Env henv ?_)
      cases hs : s1.status
      case errSocketEOF => exact (hne hs).elim
      all_goals
        rw [hs] at h
        first
        | exact Within.pure _ h
        | exact Within.bind (within_setStatus _) (fun _ => .pure _) h

lemma round_of_readError {status : Errors} (hn : s.distillerDB.Nodup)
    (h : evSelect (fail status) (evConnectionBroken (wakeSleepingDistiller rounds) c) s =
      some (result, s')) : Round s (.readError c status) s' := by
  by_cases he : status = .errSocketEOF
  · subst he
    simp only [evSelect, handleSelect, fail, setStatus, Errors.selectError, ite_eq_some,
      run_iff] at h
    rcases h with ⟨hf, _⟩ | ⟨_, b, s1, hbr, _, rfl⟩
    · cases hf
    · obtain ⟨_, ⟨d, _, hw⟩ | ⟨hc, s2, _, hr, rfl⟩⟩ :=
        evConnectionBroken_spec (within_wakeSleepingDistiller rounds) hbr
      · refine .quiet _ _ (Woken.trans (Env.launches (.mk _ _ _)).woken (hw ?_))
        exact hn
      · exact .closed c _ s2 hc (.mk _ _ _) hr
  · exact round_of_evSelect (fun b s1 hb => handled_of_fail (Env.refl _) he hb) h

section

variable {ipNumber : CString MAXIP → UInt32}

lemma reads_beaconIdentity : Within IStream.Reads beaconIdentity := by
  refine .bind (IStream.reads_delimit _) fun _ => .bind (reads_inputRemoteID _) fun rid =>
    .bind IStream.reads_skip fun _ => .bind (IStream.reads_binary _) fun _ =>
    .bind (IStream.reads_inputUInt32 _) fun randomID => .bind (IStream.reads_binary _) fun _ =>
    .bind .get fun s => ?_
  split_ifs
  · exact .pure _
  · exact .pure _

lemma beaconHandle_status_ne
    (h : beaconHandle ipNumber p past { s with status := .success } = some (false, s')) :
    s'.status ≠ .errSocketEOF := by
  simp only [beaconHandle, runStream, bind_eq_some, Option.map_eq_some_iff] at h
  obtain ⟨_, _, ⟨⟨identity, stream⟩, hr, hp⟩, h⟩ := h
  cases hp
  cases identity with
  | some identity =>
    simp only [bind_eq_some, ite_eq_some, pure_eq_some, Bool.false_eq_true, false_and,
      and_false, exists_false, or_self] at h
  | none =>
    cases h
    intro he
    rcases (reads_beaconIdentity hr).report with ⟨_, hs⟩ | ⟨_, _, hf⟩
    · cases hs.symm.trans he
    · rw [show stream.status = .errSocketEOF from he] at hf
      rcases hf with hf | hf <;> cases hf

lemma handled_of_evBusPacketReceived (h : evBusPacketReceived ipNumber p past s = some (b, s')) :
    Handled s e b s' := by
  simp only [evBusPacketReceived, setStatus, run_iff] at h
  have hc : Env s { s with status := .success } := .mk _ _ _
  cases ht : ofWord p.type with
  | none =>
    rw [ht] at h
    exact handled_of_fail hc (by decide) h
  | some type =>
    rw [ht] at h
    cases type with
    | pktPTMBeacon =>
      have henv := trans_of Env hc (within_beaconHandle ipNumber p past h)
      cases b with
      | true => exact .inl ⟨rfl, .of_env henv⟩
      | false => exact .inr ⟨rfl, henv, beaconHandle_status_ne h⟩
    | _ => exact handled_of_fail hc (by decide) h

/-- **The list is complete.** -/
theorem round_of_dispatch (hn : s.distillerDB.Nodup)
    (h : dispatch ipNumber rounds e s = some (result, s')) : Round s e s' := by
  cases e with
  | accept =>
    simp only [dispatch, evConnectionReceived, run_iff] at h
    obtain ⟨_, rfl⟩ := h
    exact .accepted
  | packet c p past => exact round_of_evSelect (fun _ _ => handled_of_evPacketReceived hn) h
  | readError c status => exact round_of_readError hn h
  | bus p past => exact round_of_evSelect (fun _ _ => handled_of_evBusPacketReceived) h
  | launchTimer p =>
    simp only [dispatch, run_iff] at h
    obtain ⟨_, _, ht, _, rfl⟩ := h
    exact .quiet _ _ (within_evTimer p ht).woken
  | beaconTimer =>
    simp only [dispatch, run_iff] at h
    obtain ⟨_, _, hb, _, rfl⟩ := h
    exact .of_env (within_busBeacon hb)
  | reload options rexecUpdated =>
    simp only [dispatch, optionsUpdate, ite_eq_some, run_iff] at h
    obtain ⟨b, s1, hu, _, _, h, _, rfl⟩ := h
    refine .reloaded options rexecUpdated b s1 _ hu ?_
    rcases h with ⟨_, ⟨_, _, _, hf, _, rfl⟩ | ⟨_, _, rfl⟩⟩ | ⟨_, _, rfl⟩
    · exact within_flushFrontEnds _ hf
    all_goals exact Env.refl _

end

/-! ## The options file -/

inductive Reloading (s : State) : State → Prop
  | status (status : Errors) : Reloading s { s with status := status }
  | new (record : LaunchRecord) :
      record.numberOfActiveDistillers = 0 → record.totalLoad = Load.zero →
      record.autoLaunchLimit ≠ 0 → Reloading s (s.newLaunch record)
  | assign (l : ℕ) (record record' : LaunchRecord) :
      s.launchRecords.cell l = some record →
      record'.numberOfActiveDistillers = record.numberOfActiveDistillers →
      record'.totalLoad = record.totalLoad →
      (record.autoLaunchLimit ≠ 0 → record'.autoLaunchLimit ≠ 0) →
      Reloading s (s.setLaunch l record')
  | delete (l : ℕ) : Reloading s (s.deleteLaunch l)
  | add (l : ℕ) : Reloading s (s.addLaunch l)
  | remove (l : ℕ) : Reloading s (s.removeLaunch l)

abbrev Reloads : State → State → Prop := ReflTransGen Reloading

lemma Reloads.eq (h : Reloads s s') : ∃ status launchRecords launchDB,
    s' = { s with status := status, launchRecords := launchRecords, launchDB := launchDB } := by
  induction h with
  | refl => exact ⟨s.status, s.launchRecords, s.launchDB, rfl⟩
  | tail _ hs ih =>
    obtain ⟨_, _, _, rfl⟩ := ih
    cases hs <;> exact ⟨_, _, _, rfl⟩

lemma reloads_setStatus (status : Errors) : Within Reloads (setStatus status) :=
  .modify fun _ => .single (.status status)

lemma reloads_deleteLaunch (l : ℕ) : Within Reloads (modify (·.deleteLaunch l) : M Unit) :=
  .modify fun _ => .single (.delete l)

lemma reloads_createRecord (entry : DistEntry) : Within Reloads (createRecord entry) := by
  refine .bind .get fun s => ?_
  cases hp : parse entry.value with
  | none =>
    have hl : DefaultAutoLaunchLimit ≠ 0 := by decide
    refine .bind (.modify fun _ => .single (.new _ rfl rfl hl)) fun _ => ?_
    exact .bind (reloads_setStatus _) fun _ => .bind (reloads_deleteLaunch _) fun _ => .pure _
  | some parameters =>
    have hl := parse_spec hp
    refine .bind (.modify fun _ => .single (.new _ rfl rfl hl)) fun _ => ?_
    split_ifs
    · exact .bind (reloads_deleteLaunch _) fun _ => .pure _
    · exact .pure _

lemma reloads_create (options : List DistEntry) : Within Reloads (create options) := by
  induction options with
  | nil => exact .pure true
  | cons entry options ih =>
    refine .bind (reloads_createRecord entry) fun l => ?_
    cases l with
    | none => exact .pure false
    | some l => exact .bind (.modify fun _ => .single (.add l)) fun _ => ih

lemma reloads_setMark (l : ℕ) (marked : Bool) : Within Reloads (setMark l marked) := by
  intro s u s' h
  simp only [setMark, derefLaunch, run_iff] at h
  obtain ⟨record, hr, rfl⟩ := h
  exact .single (.assign l record _ hr rfl rfl id)

lemma reloads_mark (records : List ℕ) : Within Reloads (mark records) := by
  induction records with
  | nil => exact .pure ()
  | cons l records ih => exact .bind (reloads_setMark l true) fun _ => ih

lemma reloads_updateRecord (l : ℕ) (value : Bytes) : Within Reloads (updateRecord l value) := by
  intro s b s' h
  simp only [updateRecord, derefLaunch, run_iff] at h
  obtain ⟨record, hr, h⟩ := h
  cases hp : parse value with
  | none =>
    rw [hp] at h
    exact Within.bind (reloads_setStatus _) (fun _ => .pure false) h
  | some parameters =>
    have hl := parse_spec hp
    simp only [hp, run_iff] at h
    obtain ⟨_, rfl⟩ := h
    exact .single (.assign l record _ hr rfl rfl fun _ => hl)

lemma reloads_updateEntry (entry : DistEntry) : Within Reloads (updateEntry entry) := by
  refine .bind (.bind .get fun _ => .ofOption _) fun found => ?_
  cases found with
  | none =>
    refine .bind (reloads_createRecord entry) fun l => ?_
    cases l with
    | none => exact .pure false
    | some l =>
      exact .bind (.modify fun _ => .single (.add l)) fun _ =>
        .bind (reloads_setMark l false) fun _ => .pure true
  | some l => exact .bind (reloads_setMark l false) fun _ => reloads_updateRecord l entry.value

lemma reloads_updateEntries (options : List DistEntry) :
    Within Reloads (updateEntries options) := by
  induction options with
  | nil => exact .pure true
  | cons entry options ih =>
    refine .bind (reloads_updateEntry entry) fun updated => ?_
    cases updated with
    | true => exact ih
    | false => exact .pure false

lemma reloads_die (l : ℕ) : Within Reloads (die l) := by
  intro s u s' h
  simp only [die, derefLaunch, findPendingLaunch, run_iff] at h
  obtain ⟨record, hr, pending, _, h⟩ := h
  cases pending with
  | some _ =>
    obtain rfl := modify_eq_some.mp h
    exact .single (.assign l record _ hr rfl rfl id)
  | none => exact reloads_deleteLaunch l h

lemma reloads_sweepAll (records : List ℕ) : Within Reloads (sweepAll records) := by
  induction records with
  | nil => exact .pure ()
  | cons l records ih =>
    exact .bind (.modify fun _ => .single (.remove l)) fun _ => .bind (reloads_die l) fun _ => ih

lemma reloads_update (options : List DistEntry) : Within Reloads (update options) := by
  refine .bind .get fun s => .bind (reloads_mark _) fun _ => .bind (reloads_updateEntries _) ?_
  intro updated
  cases updated with
  | false => exact .pure false
  | true =>
    exact .bind (.bind .get fun _ => .bind (.ofOption _) fun _ => reloads_sweepAll _) fun _ =>
      .pure true

end Glomop.Ptm
