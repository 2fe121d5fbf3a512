import Glomop.Database.BeaconHead
import Glomop.Ptm.Rounds

/-!
# Packets that abort a PTM

The event loop aborts the process when a handler has returned `gm_False` and the status is
`success`.  Over a connection no handler does that (`evPacketReceived_explained`); on the bus a
beacon that announces port 0 is refused without a status (`evBusPacketReceived_refused_iff`).  A
handler that reads text from an empty body does not return at all (`evPacketReceived_eq_none`).
-/

namespace Glomop.Ptm

open Lib Prog IStream PTMPacketType

/-! ## Failing without a status -/

variable {s s' : State} {p : Packet} {past : UInt8}

/-- **When the process is aborted**: the handler has failed and left a clean status. -/
theorem handleSelect_aborted_iff {σ : Type} {status : σ → Errors} {clear : Prog σ Unit}
    {received broken : Prog σ Bool} {s : σ} :
    (∃ s', handleSelect status clear received broken s = some (.aborted, s')) ↔
      ∃ s', received s = some (false, s') ∧ status s' = .success := by
  constructor
  · rintro ⟨s', h⟩
    obtain ⟨handled, s1, hr, h⟩ := bind_eq_some.mp h
    cases handled with
    | true => exact nomatch (pure_eq_some.mp h).1
    | false =>
      refine ⟨s1, hr, ?_⟩
      rw [if_neg Bool.false_ne_true, get_bind_run] at h
      cases hs : status s1
      case success => rfl
      all_goals
        simp only [hs, Errors.selectError, run_iff, reduceCtorEq,
          false_and, and_false, exists_false] at h
  · rintro ⟨s1, hr, hs⟩
    refine ⟨s1, ?_⟩
    rw [handleSelect, bind_run hr, if_neg Bool.false_ne_true, get_bind_run, hs]
    rfl

/-! ## Packets over a connection -/

lemma fail_explained {errorCode : Errors} (hne : errorCode ≠ .success)
    (h : fail errorCode s = some (false, s')) : s'.status ≠ .success := by
  simp only [fail, setStatus, run_iff] at h
  obtain ⟨_, rfl⟩ := h
  exact hne

def Acts {α : Type} (act : α → M Bool) : Prop :=
  ∀ ⦃a s b s'⦄, act a s = some (b, s') → b = true

lemma acts_registerDistiller (rounds c : ℕ) (id : UInt32) :
    Acts (registerDistiller rounds c id) := by
  intro reg s b s' h
  obtain ⟨d, s1, -, h⟩ := bind_eq_some.mp h
  obtain ⟨registered, s2, hr, h⟩ := bind_eq_some.mp h
  rcases register_spec hr with ⟨rfl, -⟩ | ⟨rfl, rfl⟩
  · obtain ⟨replied, s3, hre, h⟩ := bind_eq_some.mp h
    obtain ⟨rfl, -⟩ := sendReplyReceivedEvent_spec hre
    exact Yields.bind (fun _ => .bind fun _ => .pure true) h
  · rw [if_neg Bool.false_ne_true, get_bind_run, if_pos rfl] at h
    exact Yields.bind (fun _ => .bind fun _ => .bind fun _ => .pure true) h

lemma acts_reregisterDistiller (rounds c d : ℕ) : Acts (reregisterDistiller rounds c d) := by
  intro type s b s' h
  obtain ⟨_, _, -, h⟩ := bind_eq_some.mp h
  obtain ⟨_, _, -, h⟩ := bind_eq_some.mp h
  obtain ⟨_, _, -, h⟩ := bind_eq_some.mp h
  obtain ⟨registered, s2, hr, h⟩ := bind_eq_some.mp h
  rcases register_spec hr with ⟨rfl, -⟩ | ⟨rfl, rfl⟩
  · exact Yields.bind (fun _ => .pure true) h
  · rw [if_neg Bool.false_ne_true, get_bind_run, if_pos rfl] at h
    exact Yields.bind (fun _ => .bind fun _ => .bind fun _ => .pure true) h

lemma acts_evAskForDistiller (rounds : ℕ) (type : DistillerType) :
    Acts (evAskForDistiller rounds type) := by
  intro a s b s' h
  obtain ⟨_, s1, -, h⟩ := bind_eq_some.mp h
  rw [get_bind_run] at h
  obtain ⟨list, s2, -, h⟩ := bind_eq_some.mp h
  rcases ite_eq_some.mp h with ⟨-, h⟩ | ⟨-, h⟩
  · obtain ⟨woken, s3, -, h⟩ := bind_eq_some.mp h
    cases woken with
    | none => exact tryToLaunch_true h
    | some d => exact (askForDistillerReply_spec h).1
  · exact (askForDistillerReply_spec h).1

variable {α : Type} {c : ℕ} {stream : IStream}

lemma parsing_explained {x : ReadM (Option α)} {act : α → M Bool} (hx : Refusing x)
    (ha : Acts act) (h : parsing p past x act s = some (false, s')) : s'.status ≠ .success := by
  obtain ⟨parsed, s1, hrun, h⟩ := bind_eq_some.mp h
  obtain ⟨stream, hp, rfl⟩ := runStream_eq_some.mp hrun
  cases parsed with
  | some a => exact nomatch ha h
  | none =>
    cases h
    rcases hx rfl (refl_of Reads _) hp with hf | hf <;> exact fun hc => nomatch hf.symm.trans hc

lemma onDistiller_explained {act : ℕ → M Bool}
    (ha : ∀ d, act d s = some (false, s') → s'.status ≠ .success)
    (h : onDistiller c act s = some (false, s')) : s'.status ≠ .success := by
  simp only [onDistiller, derefConnection, run_iff] at h
  obtain ⟨⟨record⟩, hc, h⟩ := h
  cases record with
  | none => exact fail_explained (by decide) h
  | some d => exact ha d h

lemma onFrontEnd_explained {act : M Bool} (ha : act s = some (false, s') → s'.status ≠ .success)
    (h : onFrontEnd c act s = some (false, s')) : s'.status ≠ .success := by
  simp only [onFrontEnd, derefConnection, run_iff] at h
  obtain ⟨⟨record⟩, hc, h⟩ := h
  cases record with
  | some d => exact fail_explained (by decide) h
  | none => exact ha h

/-- **A handler that fails has set a status**, whatever the packet and the state are. -/
theorem evPacketReceived_explained {rounds : ℕ}
    (h : evPacketReceived rounds c p past s = some (false, s')) : s'.status ≠ .success := by
  unfold evPacketReceived at h
  cases ht : ofWord p.type with
  | none =>
    rw [ht] at h
    exact fail_explained (by decide) h
  | some type =>
    rw [ht] at h
    cases type with
    | pktRegisterDistiller =>
      exact onFrontEnd_explained
        (parsing_explained refusing_parseRegister (acts_registerDistiller rounds c _)) h
    | pktDeregisterDistiller =>
      refine onDistiller_explained (fun d h => ?_) h
      rcases ite_eq_some.mp h with ⟨-, h⟩ | ⟨-, h⟩
      · exact fail_explained (by decide) h
      · exact nomatch Yields.bind (fun _ => .bind fun _ => .bind fun _ => .pure true) h
    | pktReregisterDistiller =>
      exact onDistiller_explained (fun d => parsing_explained refusing_parseReregister
        (acts_reregisterDistiller rounds c d)) h
    | pktAskForDistiller =>
      refine onFrontEnd_explained (fun h => ?_) h
      rcases ite_eq_some.mp h with ⟨-, h⟩ | ⟨-, h⟩
      · exact fail_explained (by decide) h
      · refine parsing_explained refusing_parseAskForDistiller ?_ h
        intro type s b s' h
        exact Yields.bind (fun a _ _ _ h => acts_evAskForDistiller rounds type h) h
    | pktAskForUnicastBeacon =>
      exact nomatch Yields.bind (fun _ => .pure true) h
    | pktDistillerLoad =>
      refine onDistiller_explained (fun d => parsing_explained refusing_parseLoad ?_) h
      intro load s b s' h
      exact Yields.bind (fun _ => .pure true) h
    | _ => exact fail_explained (by decide) h

/-! ## Packets on the bus -/

section

variable {ipNumber : CString MAXIP → UInt32}

lemma beaconIdentity_eq : beaconIdentity = beaconHead >>= fun a => do
    let s ← get
    if s.isGood = false ∨ a.1.port = 0 then return none else return some a := by
  simp only [beaconIdentity, beaconHead, bind_assoc, pure_bind]

lemma beaconIdentity_refused_iff {status : Errors} :
    (∃ stream, beaconIdentity (ofPacket p past status) = some (none, stream) ∧
      stream.status = .success) ↔ status = .success ∧ Announces p.data 0 := by
  rw [beaconIdentity_eq]
  refine refused_cleanly_iff (fun a s1 => ?_) ⟨rfl, rfl, rfl, rfl, rfl, rfl⟩
  rw [get_bind_run]
  split_ifs with hr
  · simp [hr]
  · simp [hr]

/-- **A beacon fails without a status** if it announces port 0 and the status is clean. -/
theorem beaconHandle_refused_iff :
    (∃ s', beaconHandle ipNumber p past s = some (false, s') ∧ s'.status = .success) ↔
      s.status = .success ∧ Announces p.data 0 := by
  rw [← @beaconIdentity_refused_iff p past s.status]
  constructor
  · rintro ⟨s', h, hs⟩
    obtain ⟨identity, s1, hrun, h⟩ := bind_eq_some.mp h
    obtain ⟨stream, hr, rfl⟩ := runStream_eq_some.mp hrun
    cases identity with
    | none =>
      cases h
      exact ⟨stream, hr, hs⟩
    | some identity =>
      simp only [bind_eq_some, ite_eq_some, pure_eq_some, Bool.false_eq_true, false_and,
        and_false, exists_false, or_self] at h
  · rintro ⟨stream, hr, hs⟩
    refine ⟨{ s with status := stream.status }, ?_, hs⟩
    rw [beaconHandle, bind_run (runStream_eq_some.mpr ⟨stream, hr, rfl⟩)]
    rfl

/-- **The bus.** -/
theorem evBusPacketReceived_refused_iff :
    (∃ s', evBusPacketReceived ipNumber p past s = some (false, s') ∧ s'.status = .success) ↔
      ofWord p.type = some .pktPTMBeacon ∧ Announces p.data 0 := by
  unfold evBusPacketReceived
  rw [setStatus, bind_run rfl]
  cases ht : ofWord p.type with
  | none =>
    refine iff_of_false ?_ (by simp)
    rintro ⟨_, h, hs⟩
    exact fail_explained (by decide) h hs
  | some type =>
    cases type with
    | pktPTMBeacon =>
      have hb := @beaconHandle_refused_iff { s with status := .success } p past ipNumber
      simpa using hb
    | _ =>
      refine iff_of_false ?_ (by simp)
      rintro ⟨_, h, hs⟩
      exact fail_explained (by decide) h hs

end

/-! ## Packets without a body -/

def takeApart (registered : Bool) (p : Packet) : ReadM Unit :=
  match PTMPacketType.ofWord p.type with
  | some .pktRegisterDistiller => if registered then pure () else discard parseRegister
  | some .pktReregisterDistiller => if registered then discard parseReregister else pure ()
  | some .pktAskForDistiller =>
    if registered = true ∨ p.getLength ≤ 0 then pure () else discard parseAskForDistiller
  | some .pktDistillerLoad => if registered then discard parseLoad else pure ()
  | _ => pure ()

lemma discard_eq_none_iff {x : ReadM α} : (discard x) stream = none ↔ x stream = none := by
  change ((x stream).bind fun a => some ((), a.2)) = none ↔ _
  cases x stream <;> simp

lemma onFrontEnd_run {act : M Bool} (hc : s.connections.cell c = some ⟨none⟩) :
    onFrontEnd c act s = act s := by
  have hd : derefConnection c s = some (⟨none⟩, s) := by
    rw [derefConnection, get_bind_run, hc]
    rfl
  rw [onFrontEnd, bind_run hd]

lemma onDistiller_run {d : ℕ} {act : ℕ → M Bool} (hc : s.connections.cell c = some ⟨some d⟩) :
    onDistiller c act s = act d s := by
  have hd : derefConnection c s = some (⟨some d⟩, s) := by
    rw [derefConnection, get_bind_run, hc]
    rfl
  rw [onDistiller, bind_run hd]

lemma runStream_eq_none {x : ReadM α} (h : x (ofPacket p past s.status) = none) :
    runStream p past x s = none := by
  rw [runStream, h]
  rfl

/-- **A handler that cannot take its packet apart does not return.** -/
theorem evPacketReceived_eq_none {rounds : ℕ} {connection : Connection}
    (hc : s.connections.cell c = some connection)
    (h : takeApart connection.record.isSome p (ofPacket p past s.status) = none) :
    evPacketReceived rounds c p past s = none := by
  obtain ⟨record⟩ := connection
  unfold takeApart at h
  unfold evPacketReceived
  cases ht : ofWord p.type with
  | none =>
    rw [ht] at h
    exact nomatch h
  | some type =>
    rw [ht] at h
    cases type with
    | pktRegisterDistiller =>
      cases record with
      | some d => exact nomatch h
      | none =>
        exact (onFrontEnd_run hc).trans (bind_none (runStream_eq_none (discard_eq_none_iff.mp h)) _)
    | pktReregisterDistiller | pktDistillerLoad =>
      cases record with
      | none => exact nomatch h
      | some d =>
        have hn := runStream_eq_none (discard_eq_none_iff.mp h)
        exact (onDistiller_run hc).trans (bind_none hn _)
    | pktAskForDistiller =>
      by_cases he : record.isSome = true ∨ p.getLength ≤ 0
      · rw [if_pos he] at h
        exact nomatch h
      · rw [if_neg he] at h
        obtain ⟨hr, hl⟩ := not_or.mp he
        obtain rfl : record = none := by simpa using hr
        refine (onFrontEnd_run hc).trans ?_
        rw [if_neg hl]
        exact bind_none (runStream_eq_none (discard_eq_none_iff.mp h)) _
    | _ => exact nomatch h

def readsText (registered : Bool) : PTMPacketType → Bool
  | .pktRegisterDistiller => !registered
  | .pktReregisterDistiller | .pktDistillerLoad => registered
  | _ => false

lemma parseRegister_null (h : stream.Null) : parseRegister stream = none := by
  rw [parseRegister, bind_run rfl]
  exact bind_none ((h.delimit _).inputRemoteID _) _

lemma parseReregister_null (h : stream.Null) : parseReregister stream = none := by
  rw [parseReregister, bind_run rfl]
  exact bind_none ((h.delimit _).inputType _) _

lemma parseLoad_null (h : stream.Null) : parseLoad stream = none := by
  rw [parseLoad, bind_run rfl]
  exact bind_none ((h.delimit _).inputLoad _) _

lemma takeApart_eq_none_iff {registered : Bool} {status : Errors} (h : p.data = []) :
    takeApart registered p (ofPacket p past status) = none ↔
      ∃ type, ofWord p.type = some type ∧ readsText registered type = true := by
  have hn := null_ofPacket h past status
  have hc : registered = true ∨ p.getLength ≤ 0 := by
    rw [Packet.getLength, h]
    exact .inr (by decide)
  unfold takeApart
  cases ht : ofWord p.type with
  | none => exact iff_of_false nofun nofun
  | some type =>
    simp only [Option.some.injEq, exists_eq_left']
    cases type with
    | pktRegisterDistiller =>
      cases registered with
      | true => exact iff_of_false nofun nofun
      | false => exact iff_of_true (discard_eq_none_iff.mpr (parseRegister_null hn)) rfl
    | pktReregisterDistiller =>
      cases registered with
      | false => exact iff_of_false nofun nofun
      | true => exact iff_of_true (discard_eq_none_iff.mpr (parseReregister_null hn)) rfl
    | pktAskForDistiller =>
      rw [if_pos hc]
      exact iff_of_false nofun nofun
    | pktDistillerLoad =>
      cases registered with
      | false => exact iff_of_false nofun nofun
      | true => exact iff_of_true (discard_eq_none_iff.mpr (parseLoad_null hn)) rfl
    | _ => exact iff_of_false nofun nofun

end Glomop.Ptm
