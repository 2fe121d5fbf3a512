import Glomop.Ptm.Runs

/-!
# Requests that wait for a launch

`Accounted`: a request is answered once, or it waits in one place, and whoever waits is still
connected.  A front end that leaves while it waits breaks this (`brokenConnection_dangles`).  The
proof follows the requests: those answered, those on hold, and those in hand (`Held hand s`).
-/

namespace Glomop.Ptm

open Lib Relation Function List Heap State
open scoped List

def PendingLaunch.askers (pending : PendingLaunch) : List Asker := pending.waitingList.reduceOption

namespace State

def waiting (s : State) : List Asker :=
  s.pendingLaunches.collect PendingLaunch.askers s.pendingList

/-- The requests that were answered, once for each answer. -/
def answered (s : State) : List Asker := s.answers.map Prod.fst

end State

/-- Every request of a connection that is open was answered once, or waits once, on one list; and
nobody waits whose connection is gone. -/
structure Accounted (s : State) : Prop where
  once : ∀ a ∈ s.asked, s.connections.Live a.connection →
    (s.answered.count a = 1 ∧ s.waiting.count a = 0) ∨
      (s.answered.count a = 0 ∧ s.waiting.count a = 1)
  connected : ∀ a ∈ s.waiting, s.connections.Live a.connection

/-- No connection that waits breaks, and none registers a distiller. -/
def StaysWhileWaiting (s : State) (i : Input) : Prop :=
  match i.event with
  | .readError c status => status = .errSocketEOF → ∀ a ∈ s.waiting, a.connection ≠ c
  | .packet c p _ =>
    PTMPacketType.ofWord p.type = some .pktRegisterDistiller → ∀ a ∈ s.waiting, a.connection ≠ c
  | _ => True

instance (s : State) (i : Input) : Decidable (StaysWhileWaiting s i) :=
  match i with
  | ⟨.readError c status, _, _⟩ => inferInstanceAs
      (Decidable (status = .errSocketEOF → ∀ a ∈ s.waiting, a.connection ≠ c))
  | ⟨.packet c p _, _, _⟩ => inferInstanceAs
      (Decidable (PTMPacketType.ofWord p.type = some .pktRegisterDistiller →
        ∀ a ∈ s.waiting, a.connection ≠ c))
  | ⟨.accept, _, _⟩ | ⟨.bus _ _, _, _⟩ | ⟨.launchTimer _, _, _⟩ | ⟨.beaconTimer, _, _⟩
  | ⟨.reload _ _, _, _⟩ => inferInstanceAs (Decidable True)

/-! ## Following the requests -/

/-- The pending launches that exist are those on the launcher's list; the requests accepted, which
are numbered in order, are those answered, those on hold and those in hand; and who is not answered
yet is a front end that is still connected. -/
structure Held (hand : List Asker) (s : State) : Prop where
  listed : s.pendingLaunches.ListedIn s.pendingList
  numbered : s.asked.map Asker.serial = (List.range s.asked.length).reverse
  balanced : s.asked ~ s.answered ++ (s.waiting ++ hand)
  frontEnds : ∀ a ∈ s.waiting ++ hand, s.connections.cell a.connection = some ⟨none⟩

variable {a : Asker} {c p : ℕ} {pending : PendingLaunch} {s s' : State}

namespace Held

variable {hand : List Asker} {s s' : State}

section

variable (h : Held hand s)

include h

lemma rebind (hli : s'.pendingList = s.pendingList)
    (hl : s'.pendingLaunches = s.pendingLaunches) (hak : s'.asked = s.asked)
    (hans : s'.answers = s.answers)
    (hc : ∀ a ∈ s.waiting ++ hand, s.connections.cell a.connection = some ⟨none⟩ →
      s'.connections.cell a.connection = some ⟨none⟩) : Held hand s' := by
  have hw : s'.waiting = s.waiting := by rw [waiting, waiting, hli, hl]
  have han : s'.answered = s.answered := by rw [answered, answered, hans]
  constructor
  · rw [hli, hl]
    exact h.listed
  · rw [hak]
    exact h.numbered
  · rw [hak, han, hw]
    exact h.balanced
  · rw [hw]
    intro a ha
    exact hc a ha (h.frontEnds a ha)

lemma of_eq (hli : s'.pendingList = s.pendingList) (hl : s'.pendingLaunches = s.pendingLaunches)
    (hak : s'.asked = s.asked) (ha : s'.answers = s.answers) (hc : s'.connections = s.connections) :
    Held hand s' :=
  h.rebind hli hl hak ha fun _ _ hce => hc ▸ hce

lemma env (henv : Env s s') : Held hand s' := by
  cases henv
  exact h.of_eq rfl rfl rfl rfl rfl

lemma connection_ne {d : ℕ} (hc : s.connections.cell c = some ⟨some d⟩) :
    ∀ a ∈ s.waiting ++ hand, a.connection ≠ c := by
  rintro a ha rfl
  cases hc.symm.trans (h.frontEnds a ha)

lemma close (hc : ∀ a ∈ s.waiting ++ hand, a.connection ≠ c) : Held hand (s.closeConnection c) :=
  h.rebind rfl rfl rfl rfl fun a ha hce => (free_cell_of_ne (hc a ha)).trans hce

lemma bind (hc : ∀ a ∈ s.waiting ++ hand, a.connection ≠ c)
    (record : Option ℕ) : Held hand (s.setRecord c record) :=
  h.rebind rfl rfl rfl rfl fun a ha hce => (set_cell_of_ne (hc a ha)).trans hce

end

lemma ask (h : Held [] s) (ha : s.connections.cell a.connection = some ⟨none⟩)
    (hs : a.serial = s.asked.length) : Held [a] (s.ask a) := by
  constructor
  · exact h.listed
  · show (a :: s.asked).map Asker.serial = (List.range (a :: s.asked).length).reverse
    rw [map_cons, h.numbered, hs, length_cons, range_succ, reverse_append,
      reverse_singleton, singleton_append]
  · show a :: s.asked ~ s.answered ++ (s.waiting ++ [a])
    rw [← append_assoc]
    refine Perm.trans (h.balanced.cons a) ?_
    rw [append_nil]
    exact (perm_append_singleton a _).symm
  · intro b hb
    rcases mem_append.mp hb with hb | hb
    · exact h.frontEnds b (mem_append_left _ hb)
    · rw [mem_singleton.mp hb]
      exact ha

/-! What changes of pending launches do to the requests on hold. -/

section

variable (h : Held hand s)

include h

lemma waiting_newPending (l : ℕ) : (s.newPending l).waiting = s.waiting :=
  collect_alloc h.listed.next_not_mem

lemma waiting_setPending {pending' : PendingLaunch} (new : List Asker)
    (hp : s.pendingLaunches.cell p = some pending) (ha : pending'.askers = new ++ pending.askers) :
    (s.setPending p pending').waiting ~ new ++ s.waiting := by
  have hmem := h.listed.mem_of_cell hp
  refine (collect_set h.listed.nodup hmem hp).trans ?_
  rw [ha, append_assoc]
  exact (collect_perm hmem hp).symm.append_left new

lemma waiting_conclude (record : LaunchRecord) (status : AskForDistillerStatus)
    (hp : s.pendingLaunches.cell p = some pending) :
    s.waiting ~ pending.askers ++ (s.conclude p pending record status).waiting :=
  collect_free h.listed.nodup (h.listed.mem_of_cell hp) hp

lemma waiting_subset (hs : Launching s s') : s'.waiting ⊆ s.waiting := by
  intro a ha
  cases hs with
  | env _ henv =>
    cases henv
    exact ha
  | touch l record _ => exact ha
  | newPending l _ _ _ =>
    rw [h.waiting_newPending l] at ha
    exact ha
  | unrequested _ he =>
    cases he with
    | held _ _ p pending _ hp =>
      refine (Perm.mem_iff (h.waiting_setPending [] hp ?_)).mp ha
      rfl
    | dropped => exact ha
  | timeout p pending hp =>
    refine (Perm.mem_iff (h.waiting_setPending [] hp ?_)).mp ha
    rfl
  | conclude p pending record status hp _ =>
    exact (h.waiting_conclude record status hp).mem_iff.mpr (mem_append_right _ ha)

lemma newPending (l : ℕ) : Held hand (s.newPending l) := by
  have hs := h.waiting_newPending l
  constructor
  · exact h.listed.add
  · exact h.numbered
  · rw [hs]
    exact h.balanced
  · rw [hs]
    exact h.frontEnds

lemma setPending {pending' : PendingLaunch} (new : List Asker)
    {ha' : List Asker} (hp : s.pendingLaunches.cell p = some pending)
    (hak : pending'.askers = new ++ pending.askers) (hh : hand = new ++ ha') :
    Held ha' (s.setPending p pending') := by
  have hw := h.waiting_setPending new hp hak
  have hu : s.waiting ++ hand ~ (s.setPending p pending').waiting ++ ha' := by
    rw [hh, ← append_assoc]
    exact (perm_append_comm.trans hw.symm).append_right ha'
  constructor
  · exact h.listed.assign
  · exact h.numbered
  · exact h.balanced.trans (hu.append_left _)
  · intro a ha
    exact h.frontEnds a (hu.mem_iff.mpr ha)

end

lemma answer (h : Held [a] s) (status : AskForDistillerStatus) : Held [] (s.answer a status) := by
  constructor
  · exact h.listed
  · exact h.numbered
  · refine h.balanced.trans ?_
    show s.answered ++ (s.waiting ++ [a]) ~ (a :: s.answered) ++ (s.waiting ++ [])
    rw [append_nil, ← append_assoc]
    exact perm_append_singleton a _
  · intro b hb
    rw [append_nil] at hb
    exact h.frontEnds b (mem_append_left _ hb)

lemma conclude (h : Held hand s) (record : LaunchRecord) (status : AskForDistillerStatus)
    (hp : s.pendingLaunches.cell p = some pending) :
    Held hand (s.conclude p pending record status) := by
  have han : (s.conclude p pending record status).answered =
      pending.askers.reverse ++ s.answered := by
    simp [State.conclude, State.answered, State.answerAll, State.removePending,
      PendingLaunch.askers, comp_def]
  have hw := h.waiting_conclude record status hp
  constructor
  · exact h.listed.remove p
  · exact h.numbered
  · refine h.balanced.trans ?_
    rw [han]
    calc s.answered ++ (s.waiting ++ hand)
        ~ s.answered ++ (pending.askers ++ (s.conclude p pending record status).waiting ++ hand) :=
          (hw.append_right hand).append_left _
      _ = s.answered ++ pending.askers ++
            ((s.conclude p pending record status).waiting ++ hand) := by
          simp
      _ ~ pending.askers.reverse ++ s.answered ++
            ((s.conclude p pending record status).waiting ++ hand) := by
          refine Perm.append_right _ (perm_append_comm.trans ?_)
          exact (reverse_perm _).symm.append_right _
  · intro a ha
    apply h.frontEnds a
    rcases mem_append.mp ha with ha | ha
    · exact mem_append_left _ (hw.mem_iff.mpr (mem_append_right _ ha))
    · exact mem_append_right _ ha

/-- **Launching disposes of nobody in hand**, and answers whoever it takes off hold. -/
theorem launching (h : Held hand s) (hs : Launching s s') : Held hand s' := by
  cases hs with
  | env _ henv => exact h.env henv
  | touch l record _ => exact h.of_eq rfl rfl rfl rfl rfl
  | newPending l _ _ _ => exact h.newPending l
  | unrequested _ he =>
    cases he with
    | held _ _ p pending _ hp => exact h.setPending [] hp rfl rfl
    | dropped => exact h
  | timeout p pending hp => exact h.setPending [] hp rfl rfl
  | conclude p pending record status hp _ => exact h.conclude record status hp

lemma launches (h : Held hand s) (hc : Launches s s') : Held hand s' ∧ s'.waiting ⊆ s.waiting := by
  induction hc with
  | refl => exact ⟨h, Subset.refl _⟩
  | tail _ hs ih =>
    obtain ⟨ih, hsu⟩ := ih
    exact ⟨ih.launching hs, fun a ha => hsu (ih.waiting_subset hs ha)⟩

lemma accounted (h : Held [] s) : Accounted s := by
  have hb := h.balanced
  have hf := h.frontEnds
  rw [append_nil] at hb hf
  constructor
  · intro a ha _
    have hn : (s.asked.map Asker.serial).Nodup := by
      rw [h.numbered]
      exact nodup_reverse.mpr nodup_range
    have hc : s.answered.count a + s.waiting.count a = 1 := by
      rw [← count_append, ← hb.count_eq]
      exact count_eq_one_of_mem (Nodup.of_map _ hn) ha
    omega
  · intro a ha
    exact live_of_cell (hf a ha)

lemma requested (h : Held [a] s) (hr : Requested (some a) s s') : Held [] s' := by
  obtain ⟨s1, s2, hb, he, ha⟩ := hr
  obtain ⟨h1, _⟩ := h.launches hb
  have h2 : Held [] s2 := by
    cases he with
    | answered _ _ status => exact h1.answer status
    | held _ _ p pending _ hp => exact h1.setPending [a] hp rfl rfl
  exact (h2.launches ha).1

end Held

/-! ## Connections of distillers -/

def Linked (connections : Heap Connection) (distillers : Heap DistillerRecord) : Prop :=
  ∀ d r, distillers.cell d = some r → connections.cell r.privateConnection = some ⟨some d⟩

namespace Linked

variable {connections : Heap Connection} {distillers : Heap DistillerRecord} {c d d' : ℕ}
  {r r' : DistillerRecord}

section

variable (h : Linked connections distillers)

include h

lemma accept : Linked (connections.alloc ⟨none⟩) distillers := by
  intro d' r' hd'
  exact alloc_cell_of_cell (h d' r' hd')

lemma close (hc : connections.cell c = some ⟨none⟩) : Linked (connections.free c) distillers := by
  intro d' r' hd'
  have hb := h d' r' hd'
  rw [free_cell_of_ne, hb]
  intro heq
  rw [heq, hc] at hb
  cases hb

lemma privateConnection_ne
    (hc : connections.cell c = some ⟨some d⟩) (hd : distillers.cell d' = some r) (hne : d' ≠ d) :
    r.privateConnection ≠ c := by
  intro heq
  have hb := h _ _ hd
  rw [heq, hc] at hb
  cases hb
  exact hne rfl

lemma lose (hc : connections.cell c = some ⟨some d⟩) :
    Linked (connections.free c) (distillers.free d) := by
  intro d' r' hd'
  obtain ⟨hne, hd'⟩ := free_cell_cases hd'
  rw [free_cell_of_ne (h.privateConnection_ne hc hd' hne)]
  exact h d' r' hd'

lemma deregister (hc : connections.cell c = some ⟨some d⟩) :
    Linked (connections.set c ⟨none⟩) (distillers.free d) := by
  intro d' r' hd'
  obtain ⟨hne, hd'⟩ := free_cell_cases hd'
  rw [set_cell_of_ne (h.privateConnection_ne hc hd' hne)]
  exact h d' r' hd'

lemma register (hc : connections.cell c = some ⟨none⟩) (hr : r.privateConnection = c) :
    Linked (connections.set c ⟨some distillers.next⟩) (distillers.alloc r) := by
  intro d' r' hd'
  rcases alloc_cell_cases hd' with ⟨rfl, rfl⟩ | hd'
  · rw [hr]
    exact set_cell_self hc
  · have hb := h d' r' hd'
    rw [set_cell_of_ne, hb]
    intro heq
    rw [heq, hc] at hb
    cases hb

lemma assign (hd : distillers.cell d = some r) (hr : r'.privateConnection = r.privateConnection) :
    Linked connections (distillers.set d r') := by
  intro d' r'' hd'
  rcases set_cell_cases hd' with ⟨rfl, rfl, _⟩ | ⟨_, hd'⟩
  · rw [hr]
    exact h d' r hd
  · exact h d' r'' hd'

lemma reject : Linked connections ((distillers.alloc r).free distillers.next) := by
  intro d' r' hd'
  obtain ⟨hne, hd'⟩ := free_cell_cases hd'
  rcases alloc_cell_cases hd' with ⟨rfl, _⟩ | hd'
  · exact (hne rfl).elim
  · exact h d' r' hd'

lemma not_stray (hr : distillers.cell d = some r)
    (hp : r.privateConnection = c) (hc : connections.cell c = some ⟨none⟩) : False := by
  have hb := h d r hr
  rw [hp, hc] at hb
  cases hb

end

end Linked

lemma Waking.linked (h : Waking s s') (hs : Linked s.connections s.distillers) :
    Linked s'.connections s'.distillers := by
  cases h with
  | launching _ hst =>
    obtain ⟨hc, hd, _⟩ := hst.frame
    rw [hc, hd]
    exact hs
  | deregister => exact hs
  | wake d r hr _ => exact hs.assign hr rfl
  | lose c d r _ _ hc => exact hs.lose hc
  | stray c d r hr hp hc => exact (hs.not_stray hr hp hc).elim

lemma Woken.linked (h : Woken s s') (hs : Linked s.connections s.distillers) :
    Linked s'.connections s'.distillers :=
  h.invariant (I := fun s => Linked s.connections s.distillers) Waking.linked hs

/-- **A round keeps distillers and connections bound to each other.** -/
theorem Round.linked {e : Event} (h : Round s e s') (hs : Linked s.connections s.distillers) :
    Linked s'.connections s'.distillers := by
  cases h with
  | quiet _ _ hw => exact hw.linked hs
  | accepted => exact hs.accept
  | closed c s1 s2 hc henv hre =>
    cases henv
    cases within_removeBrokenConnection c hre
    exact hs.close hc
  | registered c p past reg stream found s1 s2 _ hc _ henv _ hl =>
    obtain ⟨hc2, hd2, _⟩ := hl.frame
    cases henv
    show Linked (s2.connections.set c ⟨some s.distillers.next⟩) s2.distillers
    rw [hc2, hd2]
    exact hs.register hc rfl
  | rejected c p past reg found s1 s2 s3 _ _ hc henv _ he2 hre he4 =>
    cases henv
    cases he2
    cases within_removeBrokenConnection c hre
    cases he4
    exact hs.reject.close hc
  | deregistered c p past d r hc hr => exact hs.deregister hc
  | reregistered c p past d r type stream s1 _ hc hr _ henv =>
    cases henv
    intro d' r' hd'
    have ha : Linked s.connections (s.distillers.set d { r with type := type }) := hs.assign hr rfl
    have hb := ha d' r' hd'
    by_cases heq : r'.privateConnection = c
    · rw [heq, hc] at hb
      rw [heq]
      exact (set_cell_self hc).trans hb
    · exact (set_cell_of_ne heq).trans hb
  | asked c p past s1 s2 _ _ _ henv hw hrq =>
    obtain ⟨hc2, hd2, _⟩ := hrq.frame
    rw [hc2, hd2]
    cases henv
    exact hw.linked hs
  | loaded c p past d r load s1 _ _ _ hr henv hw =>
    cases henv
    exact hw.linked (hs.assign hr rfl)
  | reloaded options rexecUpdated b s1 _ hu henv =>
    obtain ⟨_, _, _, rfl⟩ := Reloads.eq (reloads_update _ hu)
    cases henv
    exact hs

/-! ## Rounds -/

structure Attended (hand : List Asker) (s : State) : Prop where
  held : Held hand s
  linked : Linked s.connections s.distillers

namespace Attended

variable {hand : List Asker} {s s' : State}

lemma env (h : Attended hand s) (henv : Env s s') : Attended hand s' := by
  refine ⟨h.held.env henv, ?_⟩
  cases henv
  exact h.linked

lemma waking (h : Attended hand s) (hs : Waking s s') : Attended hand s' := by
  refine ⟨?_, hs.linked h.linked⟩
  cases hs with
  | launching _ hs => exact (h.held.launches (.single hs)).1
  | deregister | wake => exact h.held.of_eq rfl rfl rfl rfl rfl
  | lose c d r _ _ hc =>
    have hcl := h.held.close (h.held.connection_ne hc)
    exact hcl.of_eq rfl rfl rfl rfl rfl
  | stray c d r hr hp hc => exact (h.linked.not_stray hr hp hc).elim

lemma woken (h : Attended hand s) (hw : Woken s s') : Attended hand s' := by
  have hc := hw.chain
  clear hw
  induction hc with
  | refl => exact h
  | tail _ hs ih => exact ih.waking hs

end Attended

/-- **A round keeps track of every request**, unless a connection that waits breaks or registers. -/
theorem Round.attended {e : Event} (h : Round s e s') (hs : Attended [] s)
    (hok : ∀ c, (e = .readError c .errSocketEOF ∨ ∃ p past, e = .packet c p past ∧
        PTMPacketType.ofWord p.type = some .pktRegisterDistiller) →
      ∀ a ∈ s.waiting, a.connection ≠ c) : Attended [] s' := by
  refine ⟨?_, h.linked hs.linked⟩
  cases h with
  | quiet _ _ hw => exact (hs.woken hw).held
  | accepted => exact hs.held.rebind rfl rfl rfl rfl fun _ _ ha => alloc_cell_of_cell ha
  | closed c s1 s2 hc henv hre =>
    have he2 := within_removeBrokenConnection c hre
    refine ((hs.held.env henv).env he2).close ?_
    cases henv
    cases he2
    rw [append_nil]
    exact hok c (.inl rfl)
  | registered c p past reg stream found s1 s2 ht hc _ henv _ hl =>
    have hcr : Held [] ((s1.createDistiller (reg.record c found)).addDistiller
        s1.distillers.next) := (hs.held.env henv).of_eq rfl rfl rfl rfl rfl
    obtain ⟨hh, hsu⟩ := hcr.launches hl
    cases henv
    refine hh.bind ?_ _
    rw [append_nil]
    exact fun a ha => hok c (.inr ⟨p, past, rfl, ht⟩) a (hsu ha)
  | rejected c p past reg found s1 s2 s3 _ ht hc henv _ he2 hre he4 =>
    cases henv
    cases he2
    cases within_removeBrokenConnection c hre
    refine Held.env ?_ he4
    refine (hs.held.close ?_).of_eq rfl rfl rfl rfl rfl
    rw [append_nil]
    exact hok c (.inr ⟨p, past, rfl, ht⟩)
  | deregistered c p past d r hc hr =>
    exact (hs.held.bind (hs.held.connection_ne hc) none).of_eq rfl rfl rfl rfl rfl
  | reregistered c p past d r type stream s1 _ hc hr _ henv =>
    cases henv
    exact (hs.held.bind (hs.held.connection_ne hc) (some d)).of_eq rfl rfl rfl rfl rfl
  | asked c p past s1 s2 _ _ hc henv hw hrq =>
    have hs1 := hs.env henv
    have hc1 : s1.connections.cell c = some ⟨none⟩ := by
      cases henv
      exact hc
    have hse : s.asked.length = s1.asked.length := by
      cases henv
      rfl
    have hak : Attended [⟨c, p.requestReplyID, s.asked.length⟩] s2 :=
      Attended.woken ⟨hs1.held.ask hc1 hse, hs1.linked⟩ hw
    exact hak.held.requested hrq
  | loaded c p past d r load s1 _ _ _ hr henv hw =>
    cases henv
    refine (Attended.woken ?_ hw).held
    exact ⟨hs.held.of_eq rfl rfl rfl rfl rfl, hs.linked.assign hr rfl⟩
  | reloaded options rexecUpdated b s1 _ hu henv =>
    obtain ⟨_, _, _, rfl⟩ := Reloads.eq (reloads_update _ hu)
    refine Held.env ?_ henv
    exact hs.held.of_eq rfl rfl rfl rfl rfl

lemma attended_of_initial (h : Initial s) : Attended [] s := by
  obtain ⟨myAddress, myRandomID, now, options, hc⟩ := h
  obtain ⟨_, _, _, rfl⟩ := Reloads.eq (reloads_create _ hc)
  refine ⟨⟨.empty, rfl, .refl _, fun a ha => ?_⟩, fun d r hr => ?_⟩
  · cases ha
  · cases hr

section

variable {ipNumber : CString MAXIP → UInt32} {s s' : State} {inputs : List Input}

/-- **Every request is accounted for in every state of a run**, if no connection that waits breaks
or registers a distiller on the way. -/
theorem accounted_of_run (hs : Initial s)
    (h : Run (Guarded StaysWhileWaiting (step ipNumber)) s inputs s') : Accounted s' := by
  have ha : s'.distillers.ListedIn s'.distillerDB ∧ Attended [] s' := by
    refine runs_invariant (fun s => attended_of_initial) ?_ hs h
    rintro s ⟨e, outcomes, now⟩ s' _ ha hok hr
    refine hr.attended ⟨ha.held.of_eq rfl rfl rfl rfl rfl, ha.linked⟩ ?_
    rintro c (rfl | ⟨p, past, rfl, ht⟩)
    · exact hok rfl
    · exact hok ht
  exact ha.2.held.accounted

end

/-- A front end asks for a distiller that has to be launched. -/
def askAndWait : List Input :=
  [calm .accept, arrival 0 .pktAskForDistiller 7 [97] (by decide)]

/-- The distiller is launched and registers; the front end is answered. -/
theorem accounted_of_run_answered :
    ∃ s s', Initial s ∧ Run (Guarded StaysWhileWaiting (step fun _ => 0)) s
      (askAndWait ++ [calm .accept, registerA 1 1 50]) s' ∧
      s'.answered.length = 1 ∧ Accounted s' := by
  obtain ⟨s, s', hs, hrun, ha⟩ := exists_run_of_playFrom StaysWhileWaiting
    (askAndWait ++ [calm .accept, registerA 1 1 50]) (fun s' => s'.answered.length = 1)
    (by decide +kernel)
  exact ⟨s, s', hs, hrun, ha, accounted_of_run hs hrun⟩

/-- The front end leaves instead: its request stays on the list. -/
theorem brokenConnection_dangles :
    ∃ s s', Initial s ∧ Run (step fun _ => 0) s
      (askAndWait ++ [calm (.readError 0 .errSocketEOF)]) s' ∧ ¬ Accounted s' := by
  obtain ⟨s, s', hs, hrun, a, ha, hc⟩ := exists_run_of_playFrom (fun _ _ => True)
    (askAndWait ++ [calm (.readError 0 .errSocketEOF)])
    (fun s' => ∃ a ∈ s'.waiting, ¬ s'.connections.Live a.connection) (by decide +kernel)
  exact ⟨s, s', hs, hrun.mono fun _ _ _ h => h.2, fun h => hc (h.connected a ha)⟩

end Glomop.Ptm
