import Glomop.Ptm.Handlers

/-!
# What the code of a PTM does to the state

Every function of a PTM is a sequence of a few elementary changes of the state, listed here once, in
three layers: `Env`, the surroundings; `Launching`, what `DistillerLauncher` does on top of it; and
`Waking`, what waking distillers does on top of that.  What a property of the PTM needs to survive
is then a case analysis over these changes instead of over the code.
-/

namespace Glomop.Ptm

open Lib Prog Relation Heap State

/-! ## The surroundings -/

inductive Env (s : State) : State → Prop
  | mk (status : Errors) (outcomes : List Outcome) (quit : Bool) :
      Env s { s with status := status, outcomes := outcomes, quit := quit }

instance : IsPreorder State Env where
  refl s := .mk s.status s.outcomes s.quit
  trans := by
    rintro s _ _ ⟨_, _, _⟩ ⟨status, outcomes, quit⟩
    exact .mk status outcomes quit

lemma Env.refl (s : State) : Env s s := refl_of Env s

lemma within_setStatus (status : Errors) : Within Env (setStatus status) :=
  Within.modify fun s => .mk status s.outcomes s.quit

lemma within_derefConnection (c : ℕ) : Within Env (derefConnection c) :=
  .bind .get fun _ => .ofOption _

lemma within_derefPending (p : ℕ) : Within Env (derefPending p) := .bind .get fun _ => .ofOption _

lemma within_nextOutcome : Within Env nextOutcome := by
  intro s outcome s' h
  simp only [nextOutcome, run_iff] at h
  obtain ⟨_, rfl⟩ := h
  exact .mk _ _ _

lemma within_write (c : ℕ) : Within Env (write c) := by
  apply Within.bind (within_derefConnection c)
  intro _
  apply Within.bind within_nextOutcome
  intro outcome
  cases outcome with
  | ok => exact .pure true
  | eof | fail => exact .bind (within_setStatus _) fun _ => .pure false

variable {b : Bool} {c d p : ℕ} {request : Option Asker} {s s' s₁ : State}
  {status : AskForDistillerStatus} {type : DistillerType} {u : Unit}

lemma runStream_eq_some {α : Type} {p : Packet} {past : UInt8} {x : ReadM α} {a : α} :
    runStream p past x s = some (a, s') ↔
      ∃ stream, x (IStream.ofPacket p past s.status) = some (a, stream) ∧
        s' = { s with status := stream.status } := by
  simp only [runStream, Option.map_eq_some_iff, Prod.exists, Prod.mk.injEq]
  constructor
  · rintro ⟨_, stream, hx, rfl, rfl⟩
    exact ⟨stream, hx, rfl⟩
  · rintro ⟨stream, hx, rfl⟩
    exact ⟨a, stream, hx, rfl, rfl⟩

lemma within_runStream {α : Type} (p : Packet) (past : UInt8) (x : ReadM α) :
    Within Env (runStream p past x) := by
  intro s a s' h
  obtain ⟨stream, -, rfl⟩ := runStream_eq_some.mp h
  exact .mk stream.status s.outcomes s.quit

lemma within_fail (errorCode : Errors) : Within Env (fail errorCode) :=
  .bind (within_setStatus _) fun _ => .pure false

lemma within_beacon (c : ℕ) : Within Env (beacon c) := by
  refine .bind .get fun _ => .bind (.ofOption _) fun _ => .bind (.ofOption _) fun _ => ?_
  apply Within.bind (within_write c)
  intro written
  cases written with
  | true => exact .pure ()
  | false => exact within_setStatus _

lemma within_busBeacon : Within Env busBeacon := by
  refine .bind .get fun _ => .bind (.ofOption _) fun _ => .bind (.ofOption _) fun _ => ?_
  apply Within.bind within_nextOutcome
  intro outcome
  cases outcome with
  | ok => exact .pure ()
  | eof | fail => exact within_setStatus _

lemma within_beaconHandle (ipNumber : CString MAXIP → UInt32) (p : Packet) (past : UInt8) :
    Within Env (beaconHandle ipNumber p past) := by
  apply Within.bind (within_runStream p past _)
  intro identity
  cases identity with
  | none => exact .pure false
  | some identity =>
    intro s b s' h
    simp only [ite_eq_some, run_iff] at h
    rcases h with ⟨_, _, _, rfl, _, rfl⟩ | ⟨_, _, rfl⟩
    · exact .mk _ _ _
    · exact Env.refl _

lemma within_flushFrontEnds (connections : List ℕ) : Within Env (flushFrontEnds connections) := by
  induction connections with
  | nil => exact .pure []
  | cons c connections ih =>
    apply Within.bind (within_derefConnection c)
    rintro ⟨record⟩
    cases record with
    | some _ => exact ih
    | none =>
      have hrest : Within Env (flushFrontEnds connections >>= fun sent => pure (c :: sent)) :=
        .bind ih fun _ => .pure _
      apply Within.bind (within_write c)
      intro written
      cases written with
      | true => exact hrest
      | false => exact .bind (within_setStatus _) fun _ => hrest

lemma within_removeBrokenFrom (object : ℕ) (waiting : List (Option Asker)) :
    Within Env (removeBrokenFrom object waiting) := by
  induction waiting with
  | nil => exact .pure ()
  | cons current rest ih =>
    unfold removeBrokenFrom
    split_ifs
    · cases rest with
      | nil => exact within_setStatus _
      | cons _ _ => exact .fault
    · exact ih

lemma within_removeBrokenConnection (object : ℕ) : Within Env (removeBrokenConnection object) := by
  refine .bind .get fun s => ?_
  induction s.pendingList with
  | nil => exact .pure ()
  | cons p list ih =>
    apply Within.bind (within_derefPending p)
    intro pending
    exact .bind (within_removeBrokenFrom object _) fun _ => ih

/-! ## Launching -/

namespace State

def answerAll (s : State) (waiting : List (Option Asker)) (status : AskForDistillerStatus) :
    State :=
  { s with answers := (waiting.reduceOption.map (·, status)).reverse ++ s.answers }

def conclude (s : State) (p : ℕ) (pending : PendingLaunch) (record : LaunchRecord)
    (status : AskForDistillerStatus) : State :=
  { (s.answerAll pending.waitingList status).removePending p with
    launchRecords :=
      if record.mustDie then s.launchRecords.free pending.launchRecord else s.launchRecords }

end State

inductive Entered : Option Asker → State → State → Prop
  | answered (s : State) (a : Asker) (status : AskForDistillerStatus) :
      Entered (some a) s (s.answer a status)
  | held (s : State) (request : Option Asker) (p : ℕ) (pending : PendingLaunch) :
      p ∈ s.pendingList → s.pendingLaunches.cell p = some pending →
      Entered request s
        (s.setPending p { pending with waitingList := request :: pending.waitingList })
  | dropped (s : State) : Entered none s s

inductive Launching (s : State) : State → Prop
  | env (s' : State) : Env s s' → Launching s s'
  | touch (l : ℕ) (record : LaunchRecord) :
      s.launchRecords.cell l = some record →
      Launching s (s.setLaunch l { record with lastLaunch := s.now })
  | newPending (l : ℕ) :
      l ∈ s.launchDB → s.launchRecords.Live l →
      (∀ p ∈ s.pendingList, ∀ pending, s.pendingLaunches.cell p = some pending →
        pending.launchRecord ≠ l) →
      Launching s (s.newPending l)
  | unrequested (s' : State) : Entered none s s' → Launching s s'
  | timeout (p : ℕ) (pending : PendingLaunch) :
      s.pendingLaunches.cell p = some pending →
      Launching s (s.setPending p { pending with countOfTimeouts := pending.countOfTimeouts + 1 })
  | conclude (p : ℕ) (pending : PendingLaunch) (record : LaunchRecord)
      (status : AskForDistillerStatus) :
      s.pendingLaunches.cell p = some pending →
      s.launchRecords.cell pending.launchRecord = some record →
      Launching s (s.conclude p pending record status)

abbrev Launches : State → State → Prop := ReflTransGen Launching

lemma Env.launches (h : Env s s') : Launches s s' := .single (.env s' h)

lemma Env.answerAll (h : Env s s') (waiting : List (Option Asker))
    (status : AskForDistillerStatus) :
    Env (s.answerAll waiting status) (s'.answerAll waiting status) := by
  obtain ⟨st, outcomes, quit⟩ := h
  exact .mk st outcomes quit

lemma askForDistillerReply_spec {a : Asker} {list : List ℕ}
    (h : askForDistillerReply a status list s = some (b, s')) :
    b = true ∧ Env (s.answer a status) s' := by
  simp only [askForDistillerReply, run_iff] at h
  obtain ⟨_, _, _, _, _, _, hw, rfl, rfl⟩ := h
  exact ⟨rfl, within_write _ hw⟩

lemma answerWaiting_spec {list : List ℕ} {waiting : List (Option Asker)}
    (h : answerWaiting status list waiting s = some (u, s')) :
    Env (s.answerAll waiting status) s' := by
  -- by induction on the waiting list, as the loop runs along it
  induction waiting generalizing s with
  | nil =>
    cases h
    exact Env.refl _
  | cons request waiting ih =>
    cases request with
    | none => exact ih h
    | some a =>
      obtain ⟨_, s₁, hr, hre⟩ := bind_eq_some.mp h
      have hf := (askForDistillerReply_spec hr).2.answerAll waiting status
      have hs : (s.answer a status).answerAll waiting status =
          s.answerAll (some a :: waiting) status := by
        simp [answerAll, answer, List.reduceOption_cons_of_some]
      rw [hs] at hf
      exact trans_of Env hf (ih hre)

lemma conclude_of_deletePendingLaunch {pending : PendingLaunch}
    (hp : s.pendingLaunches.cell p = some pending)
    (ha : Env (s.answerAll pending.waitingList status) s₁)
    (h : deletePendingLaunch p s₁ = some (u, s')) : Launches s s' := by
  obtain ⟨st, outcomes, quit⟩ := ha
  simp only [deletePendingLaunch, derefPending, derefLaunch, ite_eq_some, run_iff] at h
  obtain ⟨pending', hp', record, hr, h⟩ := h
  obtain rfl : pending = pending' := Option.some.inj (hp.symm.trans hp')
  have he : Env (s.conclude p pending record status) s' := by
    rcases h with ⟨hd, rfl⟩ | ⟨hd, rfl⟩
    · simp only [conclude, if_pos hd]
      exact .mk st outcomes quit
    · simp only [conclude, if_neg hd]
      exact .mk st outcomes quit
  exact (ReflTransGen.single (.conclude p pending record status hp hr)).trans he.launches

lemma launches_launchFailed {v : Unit} (hf : launchFailed p s = some (u, s₁))
    (h : deletePendingLaunch p s₁ = some (v, s')) : Launches s s' := by
  simp only [launchFailed, derefPending, run_iff] at hf
  obtain ⟨pending, hp, ha⟩ := hf
  exact conclude_of_deletePendingLaunch hp (answerWaiting_spec ha) h

lemma within_launch (l : ℕ) : Within Launches (launch l) := by
  intro s b s' h
  simp only [launch, derefLaunch, run_iff] at h
  obtain ⟨record, hr, outcome, s₁, hn, h⟩ := h
  have hre : Env s₁ s' := by
    cases outcome with
    | ok => exact Within.pure true h
    | eof | fail => exact Within.bind (within_setStatus _) (fun _ => .pure false) h
  exact (ReflTransGen.single (.touch l record hr)).trans
    (trans_of Env (within_nextOutcome hn) hre).launches

def Requested (request : Option Asker) (s s' : State) : Prop :=
  ∃ s₁ s₂, Launches s s₁ ∧ Entered request s₁ s₂ ∧ Launches s₂ s'

lemma Requested.launches (h : Requested none s s') : Launches s s' := by
  obtain ⟨s₁, s2, hb, he, ha⟩ := h
  exact (hb.tail (.unrequested s2 he)).trans ha

lemma entered_of_append (hp : p ∈ s.pendingList) (h : append p request s = some (b, s')) :
    Entered request s s' := by
  simp only [append, derefPending, run_iff] at h
  obtain ⟨pending, hpe, rfl, rfl⟩ := h
  exact .held _ request p pending hp hpe

lemma requested_of_initiateLaunch {l : ℕ} (hl : l ∈ s.launchDB) (hli : s.launchRecords.Live l)
    (hn : ∀ p ∈ s.pendingList, ∀ pending, s.pendingLaunches.cell p = some pending →
      pending.launchRecord ≠ l) (h : initiateLaunch l request s = some (b, s')) :
    Requested request s s' := by
  simp only [initiateLaunch, run_iff] at h
  obtain ⟨_, s₁, ha, launched, s2, hla, h⟩ := h
  refine ⟨_, s₁, .single (.newPending l hl hli hn),
    entered_of_append (.head _) ha, (within_launch l hla).trans ?_⟩
  cases launched with
  | true => exact Within.pure true h
  | false =>
    simp only [Bool.false_eq_true, if_false, run_iff] at h
    obtain ⟨_, s3, hf, _, _, hd, _, rfl⟩ := h
    exact launches_launchFailed hf hd

lemma requested_of_tryToLaunch (h : tryToLaunch type request s = some (b, s')) :
    Requested request s s' := by
  simp only [tryToLaunch, findMatchingLaunch, run_iff] at h
  obtain ⟨found, hf, h⟩ := h
  cases found with
  | none =>
    cases request with
    | none =>
      cases h
      exact ⟨_, _, .refl, .dropped _, .refl⟩
    | some a =>
      simp only [run_iff] at h
      obtain ⟨_, _, hre, _, rfl⟩ := h
      exact ⟨_, _, .refl, .answered _ a _, (askForDistillerReply_spec hre).2.launches⟩
  | some l =>
    simp only [findPendingLaunch, run_iff] at h
    obtain ⟨pending, hpe, h⟩ := h
    obtain ⟨hl, record, hr, _⟩ := findFirst_eq_some hf
    cases pending with
    | some p =>
      exact ⟨_, s', .refl, entered_of_append (findFirst_eq_some hpe).1 h, .refl⟩
    | none =>
      refine requested_of_initiateLaunch hl (live_of_cell hr) ?_ h
      intro p hp pending hc
      simpa using findFirst_eq_none hpe hp hc

lemma tryToLaunch_true (h : tryToLaunch type request s = some (b, s')) : b = true := by
  simp only [tryToLaunch, bind_eq_some] at h
  obtain ⟨found, _, _, h⟩ := h
  cases found with
  | none =>
    cases request with
    | none => exact (pure_eq_some.mp h).1
    | some a =>
      simp only [run_iff] at h
      obtain ⟨_, _, _, rfl, _⟩ := h
      rfl
  | some l =>
    simp only [bind_eq_some] at h
    obtain ⟨pending, _, _, h⟩ := h
    cases pending with
    | some p =>
      simp only [append, run_iff] at h
      obtain ⟨_, _, _, rfl, _⟩ := h
      rfl
    | none =>
      simp only [initiateLaunch, ite_eq_some, run_iff] at h
      obtain ⟨_, _, _, _, _, _, ⟨_, rfl, _⟩ | ⟨_, _, _, _, _, _, _, rfl, _⟩⟩ := h
      · rfl
      · rfl

lemma within_tryToLaunch (type : DistillerType) : Within Launches (tryToLaunch type none) :=
  fun _ _ _ h => (requested_of_tryToLaunch h).launches

lemma evReplyReceived_spec (h : evReplyReceived p d s = some (b, s')) :
    b = true ∧ Launches s s' := by
  simp only [evReplyReceived, derefDistiller, derefPending, derefLaunch, ite_eq_some, run_iff] at h
  obtain ⟨_, _, h⟩ := h
  rcases h with ⟨_, h⟩ | ⟨_, rfl, rfl⟩
  · obtain ⟨pending, hp, _, _, _, _, ha, _, _, hd, rfl, rfl⟩ := h
    exact ⟨rfl, conclude_of_deletePendingLaunch hp (answerWaiting_spec ha) hd⟩
  · exact ⟨rfl, .refl⟩

lemma sendReplyReceivedEvent_spec {id : UInt32}
    (h : sendReplyReceivedEvent id d s = some (b, s')) : b = true ∧ Launches s s' := by
  simp only [sendReplyReceivedEvent, ite_eq_some, run_iff] at h
  rcases h with ⟨_, rfl, rfl⟩ | ⟨_, h⟩
  · exact ⟨rfl, .refl⟩
  · cases hf : s.findRequestReply id with
    | none =>
      rw [hf] at h
      cases h
      exact ⟨rfl, .refl⟩
    | some p =>
      rw [hf] at h
      exact evReplyReceived_spec h

lemma within_evTimer (p : ℕ) : Within Launches (evTimer p) := by
  intro s b s' h
  simp only [evTimer, derefPending, derefLaunch, ite_eq_some, run_iff] at h
  obtain ⟨pending, hp, _, _, h⟩ := h
  refine (ReflTransGen.single (.timeout p pending hp)).trans ?_
  rcases h with ⟨_, _, _, hf, _, _, hd, _, rfl⟩ | ⟨_, launched, s₁, hl, h⟩
  · exact launches_launchFailed hf hd
  · refine (within_launch _ hl).trans ?_
    rcases h with ⟨_, _, rfl⟩ | ⟨_, _, _, hf, _, _, hd, _, _, hs, _, rfl⟩
    · exact .refl
    · exact (launches_launchFailed hf hd).trans (within_setStatus _ hs).launches

/-! ## Waking -/

def adjusted (records : Heap LaunchRecord) (r : DistillerRecord)
    (change : LaunchRecord → LaunchRecord) : Heap LaunchRecord :=
  match r.launchRecord with
  | none => records
  | some l =>
    match records.cell l with
    | none => records
    | some record => if r.isAwake then records.set l (change record) else records

section Adjusted

variable {records : Heap LaunchRecord} {r : DistillerRecord} {change : LaunchRecord → LaunchRecord}

lemma adjusted_of_awake {l : ℕ} {record : LaunchRecord} (hl : r.launchRecord = some l)
    (hre : records.cell l = some record) (hr : r.isAwake = true) :
    adjusted records r change = records.set l (change record) := by
  simp [adjusted, hl, hre, hr]

lemma adjusted_of_asleep (hr : r.isAwake = false) : adjusted records r change = records := by
  simp only [adjusted, hr, Bool.false_eq_true, if_false]
  repeat' split
  all_goals rfl

lemma adjusted_of_unbound (hl : r.launchRecord = none) : adjusted records r change = records := by
  simp only [adjusted, hl]

end Adjusted

def LaunchRecord.countIn (record : LaunchRecord) : LaunchRecord :=
  { record with numberOfActiveDistillers := record.numberOfActiveDistillers + 1 }

def LaunchRecord.countOut (load : Load) (record : LaunchRecord) : LaunchRecord :=
  { record with
    numberOfActiveDistillers := record.numberOfActiveDistillers - 1
    totalLoad := record.totalLoad.sub load }

namespace State

def countIn (s : State) (r : DistillerRecord) : State :=
  { s with launchRecords := adjusted s.launchRecords r LaunchRecord.countIn }

def countOut (s : State) (r : DistillerRecord) : State :=
  { s with launchRecords := adjusted s.launchRecords r (LaunchRecord.countOut r.load) }

def createDistiller (s : State) (r : DistillerRecord) : State := (s.newDistiller r).countIn r

def destroyDistiller (s : State) (d : ℕ) (r : DistillerRecord) : State :=
  (s.countOut r).deleteDistiller d

def wakeDistiller (s : State) (d : ℕ) (r : DistillerRecord) : State :=
  (s.setDistiller d r.awaken).countIn r.awaken

end State

inductive Waking (s : State) : State → Prop
  | launching (s' : State) : Launching s s' → Waking s s'
  | deregister (d : ℕ) : s.distillers.Live d → Waking s (s.removeDistiller d)
  | wake (d : ℕ) (r : DistillerRecord) :
      s.distillers.cell d = some r → r.isAwake = false → Waking s (s.wakeDistiller d r)
  | lose (c d : ℕ) (r : DistillerRecord) :
      s.distillers.cell d = some r → d ∉ s.distillerDB → s.connections.cell c = some ⟨some d⟩ →
      Waking s ((s.destroyDistiller d r).closeConnection c)
  | stray (c d : ℕ) (r : DistillerRecord) :
      s.distillers.cell d = some r → r.privateConnection = c → s.connections.cell c = some ⟨none⟩ →
      Waking s (s.closeConnection c)

abbrev WakeChain : State → State → Prop := ReflTransGen Waking

def State.Orphan (s : State) (d : ℕ) : Prop := s.distillers.Live d ∧ d ∉ s.distillerDB

structure Woken (s s' : State) : Prop where
  chain : WakeChain s s'
  orphans : ∀ d, s'.Orphan d → s.Orphan d

def Wakes (s s' : State) : Prop := s.distillerDB.Nodup → Woken s s'

lemma Launches.wakeChain (h : Launches s s') : WakeChain s s' :=
  ReflTransGen.mono (fun _ s' hs => Waking.launching s' hs) _ _ h

/-- Connections and distillers are the same. -/
def Frame (s s' : State) : Prop :=
  s'.connections = s.connections ∧ s'.distillers = s.distillers ∧ s'.distillerDB = s.distillerDB

lemma Frame.trans {s1 : State} (h : Frame s s1) (h' : Frame s1 s') : Frame s s' :=
  ⟨h'.1.trans h.1, h'.2.1.trans h.2.1, h'.2.2.trans h.2.2⟩

lemma Entered.frame (h : Entered request s s') : Frame s s' := by
  cases h <;> exact ⟨rfl, rfl, rfl⟩

lemma Launching.frame (h : Launching s s') : Frame s s' := by
  cases h with
  | env _ henv =>
    cases henv
    exact ⟨rfl, rfl, rfl⟩
  | unrequested _ he => exact he.frame
  | _ => exact ⟨rfl, rfl, rfl⟩

lemma Launches.frame (h : Launches s s') : Frame s s' := by
  induction h with
  | refl => exact ⟨rfl, rfl, rfl⟩
  | tail _ hs ih => exact ih.trans hs.frame

lemma Requested.frame (h : Requested request s s') : Frame s s' := by
  obtain ⟨s₁, s2, hb, he, ha⟩ := h
  exact (Launches.frame hb).trans (he.frame.trans (Launches.frame ha))

lemma Waking.frame (h : Waking s s') :
    (∀ c connection, s'.connections.cell c = some connection →
      s.connections.cell c = some connection) ∧ s'.distillerDB.Sublist s.distillerDB := by
  cases h with
  | launching _ h =>
    obtain ⟨hc, _, hdb⟩ := h.frame
    rw [hc, hdb]
    exact ⟨fun _ _ hce => hce, .refl _⟩
  | deregister d _ => exact ⟨fun _ _ hce => hce, List.erase_sublist⟩
  | wake d r _ _ => exact ⟨fun _ _ hce => hce, .refl _⟩
  | lose c d r _ _ _ | stray c d r _ _ _ => exact ⟨fun _ _ hce => (free_cell_cases hce).2, .refl _⟩

lemma WakeChain.frame (h : WakeChain s s') :
    (∀ c connection, s'.connections.cell c = some connection →
      s.connections.cell c = some connection) ∧ s'.distillerDB.Sublist s.distillerDB := by
  induction h with
  | refl => exact ⟨fun _ _ hce => hce, .refl _⟩
  | tail _ hs ih =>
    obtain ⟨hc, hdb⟩ := hs.frame
    obtain ⟨hc', hd'⟩ := ih
    exact ⟨fun c connection hce => hc' c connection (hc c connection hce), hdb.trans hd'⟩

lemma Woken.invariant {I : State → Prop} (h : Woken s s')
    (hw : ∀ {s s'}, Waking s s' → I s → I s') (hs : I s) : I s' := by
  obtain ⟨hc, -⟩ := h
  induction hc with
  | refl => exact hs
  | tail _ hst ih => exact hw hst ih

lemma Woken.nodup (h : Woken s s') (hs : s.distillerDB.Nodup) : s'.distillerDB.Nodup :=
  hs.sublist (WakeChain.frame h.chain).2

lemma Woken.trans (h1 : Woken s s₁) (h2 : Woken s₁ s') : Woken s s' :=
  ⟨h1.chain.trans h2.chain, fun d hd => h1.orphans d (h2.orphans d hd)⟩

instance : IsPreorder State Wakes where
  refl _ _ := ⟨.refl, fun _ hd => hd⟩
  trans _ _ _ h₁ h₂ hs := (h₁ hs).trans (h₂ ((h₁ hs).nodup hs))

lemma Launches.woken (h : Launches s s') : Woken s s' := by
  refine ⟨h.wakeChain, ?_⟩
  obtain ⟨_, hd, hdb⟩ := h.frame
  intro d ho
  rw [State.Orphan, hd, hdb] at ho
  exact ho

lemma Launches.wakes (h : Launches s s') : Wakes s s' := fun _ => h.woken

lemma Env.wakes (h : Env s s') : Wakes s s' := h.launches.wakes

lemma deleteDistillerRecord_spec (h : deleteDistillerRecord d s = some (u, s')) :
    ∃ r, s.distillers.cell d = some r ∧ s' = s.destroyDistiller d r := by
  simp only [deleteDistillerRecord, derefDistiller, run_iff] at h
  obtain ⟨r, hr, h⟩ := h
  refine ⟨r, hr, ?_⟩
  cases hl : r.launchRecord with
  | none =>
    simp only [hl, modify_eq_some] at h
    rw [h, destroyDistiller, countOut, adjusted_of_unbound hl]
  | some l =>
    simp only [hl, ite_eq_some, evDeregisterDistiller, derefLaunch, run_iff] at h
    rcases h with ⟨haw, record, hre, rfl⟩ | ⟨ha, rfl⟩
    · rw [destroyDistiller, countOut, adjusted_of_awake hl hre (decide_eq_true haw)]
      rfl
    · rw [destroyDistiller, countOut, adjusted_of_asleep (decide_eq_false ha)]

lemma newDistillerRecord_spec {rid : RemoteID} {status restart : UInt32}
    (h : newDistillerRecord c rid type status restart s = some (d, s')) :
    ∃ found : Option (ℕ × LaunchRecord),
      (∀ l record, found = some (l, record) →
        l ∈ s.launchDB ∧ s.launchRecords.cell l = some record) ∧
      d = s.distillers.next ∧
        s' = s.createDistiller (freshRecord c rid type status restart found) := by
  simp only [newDistillerRecord, findMatchingLaunch, derefLaunch, run_iff] at h
  obtain ⟨found, hf, h⟩ := h
  cases found with
  | none =>
    simp only [run_iff] at h
    obtain ⟨rfl, rfl⟩ := h
    refine ⟨none, ?_, rfl, rfl⟩
    intro l record hn
    cases hn
  | some l =>
    simp only [ite_eq_some, evRegisterDistiller, derefLaunch, run_iff] at h
    obtain ⟨record, hr, h⟩ := h
    refine ⟨some (l, record), ?_, ?_, ?_⟩
    · intro l' record' hs
      cases hs
      exact ⟨(findFirst_eq_some hf).1, hr⟩
    · rcases h with ⟨_, _, _, rfl, _⟩ | ⟨_, rfl, _⟩ <;> rfl
    · rcases h with ⟨haw, record', hr', _, rfl⟩ | ⟨ha, _, rfl⟩
      · rw [createDistiller, countIn, adjusted_of_awake rfl hr' (decide_eq_true haw)]
        rfl
      · rw [createDistiller, countIn, adjusted_of_asleep (decide_eq_false ha)]

section

variable {wake : DistillerType → M (Option ℕ)} (hwake : ∀ type, Within Wakes (wake type))

include hwake

lemma within_relaunch (l : ℕ) : Within Wakes (relaunch wake l) := by
  intro s u s' h
  simp only [relaunch, derefLaunch, derefDistiller, run_iff] at h
  obtain ⟨_, _, woken, s₁, hw, h⟩ := h
  refine trans_of Wakes (hwake _ hw) ?_
  cases woken with
  | some d =>
    simp only [run_iff] at h
    obtain ⟨_, _, record, hr, rfl⟩ := h
    exact Launches.wakes (.single (.touch l record hr))
  | none =>
    simp only [run_iff] at h
    obtain ⟨record, hr, _, _, hl, _, rfl⟩ := h
    exact (within_tryToLaunch _ hl).wakes

lemma within_evUnnaturalDeath (d : ℕ) : Within Wakes (evUnnaturalDeath wake d) := by
  intro s u s' h
  simp only [evUnnaturalDeath, derefDistiller, run_iff] at h
  obtain ⟨r, _, h⟩ := h
  cases hl : r.launchRecord with
  | none =>
    rw [hl] at h
    exact Within.pure () h
  | some l =>
    simp only [hl, ite_eq_some] at h
    rcases h with ⟨_, h⟩ | ⟨_, h⟩
    · exact within_relaunch hwake l h
    · exact Within.pure () h

lemma wakes_dropDistiller (hc : s.connections.cell c = some ⟨some d⟩)
    (h : dropDistiller wake c d s = some (u, s₁)) : Wakes s (s₁.closeConnection c) := by
  intro hn
  simp only [dropDistiller, deregister, derefDistiller, derefConnection, run_iff] at h
  obtain ⟨r0, hr0, _, s2, hd, _, s3, hdl, connection, hc3, rfl⟩ := h
  have hde := Waking.deregister d (live_of_cell hr0)
  have hd := within_evUnnaturalDeath hwake d hd (hn.sublist hde.frame.2)
  obtain ⟨hco, hdb⟩ := WakeChain.frame hd.chain
  obtain ⟨r, hr, rfl⟩ := deleteDistillerRecord_spec hdl
  -- the connection was there all along, so it is still bound to the distiller
  obtain rfl : connection = ⟨some d⟩ := Option.some.inj ((hco c connection hc3).symm.trans hc)
  have hg : d ∉ s2.distillerDB := fun hmem => hn.not_mem_erase (hdb.subset hmem)
  have hcl : ((s2.destroyDistiller d r).setRecord c none).closeConnection c =
      (s2.destroyDistiller d r).closeConnection c := by
    simp only [closeConnection, setRecord, free_set]
  rw [hcl]
  refine ⟨(hd.chain.head hde).tail (.lose c d r hr hg hc3), ?_⟩
  -- the one record that was deregistered is gone at the end
  rintro d' ⟨hl, hmem⟩
  obtain ⟨hne, hl⟩ := free_live_iff.mp hl
  obtain ⟨hl, hmem⟩ := hd.orphans d' ⟨hl, hmem⟩
  exact ⟨hl, fun hd' => hmem ((List.mem_erase_of_ne hne).mpr hd')⟩

/-- A broken connection loses the distiller registered on it; a front end is looked for in the
waiting lists, and its connection is closed. -/
lemma evConnectionBroken_spec (h : evConnectionBroken wake c s = some (b, s')) :
    b = true ∧
      ((∃ d, s.connections.cell c = some ⟨some d⟩ ∧ Wakes s s') ∨
        (s.connections.cell c = some ⟨none⟩ ∧
          ∃ s₁ u, removeBrokenConnection c s = some (u, s₁) ∧ s' = s₁.closeConnection c)) := by
  simp only [evConnectionBroken, derefConnection, run_iff] at h
  obtain ⟨⟨record⟩, hc, h⟩ := h
  cases record with
  | some d =>
    simp only [run_iff] at h
    obtain ⟨_, _, hd, rfl, rfl⟩ := h
    exact ⟨rfl, .inl ⟨d, hc, wakes_dropDistiller hwake hc hd⟩⟩
  | none =>
    simp only [run_iff] at h
    obtain ⟨_, s₁, hr, rfl, rfl⟩ := h
    exact ⟨rfl, .inr ⟨hc, s₁, _, hr, rfl⟩⟩

lemma within_wakeUp (d : ℕ) : Within Wakes (wakeUp wake d) := by
  intro s b s' h
  simp only [wakeUp, derefDistiller, ite_eq_some, run_iff] at h
  obtain ⟨r, hr, h⟩ := h
  rcases h with ⟨_, h⟩ | ⟨ha, written, s₁, hwr, h⟩
  · exact Within.pure true (pure_eq_some.mpr h)
  have henv := within_write _ hwr
  refine trans_of Wakes henv.wakes ?_
  -- a write changes no distiller record
  replace hr : s₁.distillers.cell d = some r := by
    cases henv
    exact hr
  rcases h with ⟨_, h⟩ | ⟨_, h⟩
  · have hwo : s' = s₁.wakeDistiller d r := by
      cases hl : r.launchRecord with
      | none =>
        simp only [hl, run_iff] at h
        obtain ⟨_, rfl⟩ := h
        rw [wakeDistiller, countIn, adjusted_of_unbound (show r.awaken.launchRecord = none from hl)]
      | some l =>
        simp only [hl, evRegisterDistiller, derefLaunch, run_iff] at h
        obtain ⟨record, hrc, _, rfl⟩ := h
        rw [wakeDistiller, countIn,
          adjusted_of_awake (show r.awaken.launchRecord = some l from hl) hrc rfl]
        rfl
    rw [hwo]
    refine fun _ => ⟨.single (.wake d r hr (decide_eq_false ha)), ?_⟩
    rintro d' ⟨hli, hmem⟩
    exact ⟨set_live.mp hli, hmem⟩
  · obtain ⟨_, s2, hb, _, s3, hs, _, rfl⟩ := h
    refine trans_of Wakes ?_ (within_setStatus _ hs).wakes
    rcases (evConnectionBroken_spec hwake hb).2 with ⟨_, _, hw⟩ | ⟨hc, s3, _, hre, rfl⟩
    · exact hw
    · have hre := within_removeBrokenConnection _ hre
      refine trans_of Wakes hre.wakes ?_
      cases hre
      refine fun _ => ⟨.single (.stray _ d r ?_ rfl ?_), fun _ hd => hd⟩
      · exact hr
      · exact hc

end

lemma within_wakeLoop (rounds : ℕ) (type : DistillerType) (dist : Option ℕ) :
    Within Wakes (wakeLoop rounds type dist) := by
  -- the rounds bound the recursion of the loop and that of the calls it makes
  induction rounds generalizing type dist with
  | zero => exact .fault
  | succ rounds ih =>
    refine .bind .get fun s => .bind (.ofOption _) fun found => ?_
    cases found.or dist with
    | none => exact .pure none
    | some d =>
      apply Within.bind (within_wakeUp (fun t => ih t none) d)
      intro woken
      cases woken with
      | true => exact .pure (some d)
      | false =>
        refine .bind .get fun s₁ => ?_
        split_ifs
        · refine .bind ?_ fun _ => ih type (some d)
          exact (within_setStatus _).mono fun _ _ henv => henv.wakes
        · exact .pure none

lemma within_wakeSleepingDistiller (rounds : ℕ) (type : DistillerType) :
    Within Wakes (wakeSleepingDistiller rounds type) :=
  within_wakeLoop rounds type none

lemma within_tryToAutoLaunch (rounds l : ℕ) : Within Wakes (tryToAutoLaunch rounds l) := by
  refine .bind (.bind .get fun _ => .ofOption _) fun record => .bind .get fun s => ?_
  split_ifs
  · exact .pure ()
  · exact within_relaunch (within_wakeSleepingDistiller rounds) l

end Glomop.Ptm
