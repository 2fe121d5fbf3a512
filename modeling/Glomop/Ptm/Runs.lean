import Glomop.Ptm.Rounds

/-!
# Runs of a PTM

Between two rounds of the event loop the records in the distiller database are those that exist,
each once.  `runs_invariant` is the induction that everything about runs goes through: what holds of
a PTM that has just read its options, and survives every round that meets a condition, holds in
every state of a run whose rounds meet it.
-/

namespace Glomop.Ptm

open Lib Relation

lemma Waking.live_of_mem {s s' : State} (h : Waking s s')
    (hs : ∀ d ∈ s.distillerDB, s.distillers.Live d) :
    ∀ d ∈ s'.distillerDB, s'.distillers.Live d := by
  cases h with
  | launching _ h =>
    obtain ⟨_, hd, hdb⟩ := h.frame
    rw [hd, hdb]
    exact hs
  | deregister d _ => exact fun d' hd' => hs d' (List.mem_of_mem_erase hd')
  | wake d r _ _ => exact fun d' hd' => Heap.set_live.mpr (hs d' hd')
  | lose c d r _ hg _ =>
    intro d' hd'
    refine Heap.free_live_iff.mpr ⟨?_, hs d' hd'⟩
    rintro rfl
    exact hg hd'
  | stray => exact hs

lemma Woken.registered {s s' : State} (h : Woken s s')
    (hs : s.distillers.ListedIn s.distillerDB) : s'.distillers.ListedIn s'.distillerDB where
  nodup := h.nodup hs.nodup
  mem_iff d := by
    have hl := h.invariant (I := fun s => ∀ d ∈ s.distillerDB, s.distillers.Live d)
      Waking.live_of_mem fun d => (hs.mem_iff d).mp
    constructor
    · exact hl d
    · intro hd
      by_contra hmem
      obtain ⟨hd', hm'⟩ := h.orphans d ⟨hd, hmem⟩
      exact hm' ((hs.mem_iff d).mpr hd')

lemma Woken.all {s s' : State} {P : DistillerRecord → Prop} (h : Woken s s')
    (ha : ∀ r, P r → P r.awaken) (hs : s.distillers.All P) : s'.distillers.All P := by
  refine h.invariant (I := fun s => s.distillers.All P) (fun hst ih => ?_) hs
  cases hst with
  | launching _ hst =>
    obtain ⟨_, hd, _⟩ := hst.frame
    rw [hd]
    exact ih
  | deregister => exact ih
  | wake d r hr _ => exact ih.set (ha r (ih d r hr))
  | lose => exact ih.free
  | stray => exact ih

/-- **Between rounds the database lists the records that exist.** -/
theorem Round.registered_of {s s' : State} {e : Event} (h : Round s e s')
    (hs : s.distillers.ListedIn s.distillerDB) : s'.distillers.ListedIn s'.distillerDB := by
  cases h with
  | quiet _ _ hw => exact hw.registered hs
  | accepted => exact hs
  | closed c s1 s2 _ henv hre =>
    cases henv
    cases within_removeBrokenConnection c hre
    exact hs
  | registered c p past reg stream found s1 s2 _ _ _ henv _ hl =>
    cases henv
    obtain ⟨_, hd, hdb⟩ := hl.frame
    show s2.distillers.ListedIn s2.distillerDB
    rw [hd, hdb]
    exact hs.add
  | rejected c p past reg found s1 s2 s3 _ _ _ henv _ he2 hre he4 =>
    cases henv
    cases he2
    cases within_removeBrokenConnection c hre
    cases he4
    exact hs.reject
  | deregistered c p past d r _ _ => exact hs.remove d
  | reregistered c p past d r type stream s1 _ _ hr _ henv =>
    cases henv
    exact (hs.renew (hs.mem_of_cell hr)).assign
  | asked c p past s1 s2 _ _ _ henv hw hrq =>
    cases henv
    obtain ⟨_, hd, hdb⟩ := hrq.frame
    rw [hd, hdb]
    exact hw.registered hs
  | loaded c p past d r load s1 _ _ _ _ henv hw =>
    cases henv
    exact hw.registered hs.assign
  | reloaded options rexecUpdated b s1 _ hu henv =>
    obtain ⟨_, _, _, rfl⟩ := Reloads.eq (reloads_update _ hu)
    cases henv
    exact hs

/-- **What is true of every new record, and stays true of a record**, is true after a round of all
that exist, if it was before. -/
theorem Round.all {s s' : State} {e : Event} {P : DistillerRecord → Prop} (h : Round s e s')
    (hs : s.distillers.All P) (ha : ∀ r, P r → P r.awaken)
    (hrp : ∀ r load, P r → P (r.report load))
    (hrc : ∀ stream stream' reg c found,
      parseRegister stream = some (some reg, stream') → P (reg.record c found))
    (hrt : ∀ c p past stream' type r, e = .packet c p past →
      PTMPacketType.ofWord p.type = some .pktReregisterDistiller →
      parseReregister (IStream.ofPacket p past s.status) = some (some type, stream') →
      P r → P { r with type := type }) : s'.distillers.All P := by
  cases h with
  | quiet _ _ hw => exact hw.all ha hs
  | accepted => exact hs
  | closed c s1 s2 _ henv hre =>
    cases henv
    cases within_removeBrokenConnection c hre
    exact hs
  | registered c p past reg stream found s1 s2 _ _ hp henv _ hl =>
    obtain ⟨_, hd, _⟩ := hl.frame
    cases henv
    show s2.distillers.All P
    rw [hd]
    exact hs.alloc (hrc _ _ reg c found hp)
  | rejected c p past reg found s1 s2 s3 _ _ _ henv _ he2 hre he4 =>
    cases henv
    cases he2
    cases within_removeBrokenConnection c hre
    cases he4
    intro d r hr
    obtain ⟨hne, hr⟩ := Heap.free_cell_cases hr
    rcases Heap.alloc_cell_cases hr with ⟨heq, _⟩ | hr
    · exact (hne heq).elim
    · exact hs d r hr
  | deregistered => exact hs.free
  | reregistered c p past d r type stream s1 ht _ hr hp henv =>
    cases henv
    exact hs.set (hrt c p past stream type r rfl ht hp (hs d r hr))
  | asked c p past s1 s2 _ _ _ henv hw hrq =>
    cases henv
    obtain ⟨_, hd, _⟩ := hrq.frame
    rw [hd]
    exact hw.all ha hs
  | loaded c p past d r load s1 _ _ _ hr henv hw =>
    cases henv
    exact hw.all ha (hs.set (hrp r load (hs d r hr)))
  | reloaded options rexecUpdated b s1 _ hu henv =>
    obtain ⟨_, _, _, rfl⟩ := Reloads.eq (reloads_update _ hu)
    cases henv
    exact hs

lemma all_of_initial {s : State} (h : Initial s) (P : DistillerRecord → Prop) :
    s.distillers.All P := by
  obtain ⟨myAddress, myRandomID, now, options, hc⟩ := h
  obtain ⟨_, _, _, rfl⟩ := Reloads.eq (reloads_create _ hc)
  nofun

lemma registered_of_initial {s : State} (h : Initial s) : s.distillers.ListedIn s.distillerDB := by
  obtain ⟨myAddress, myRandomID, now, options, hc⟩ := h
  obtain ⟨_, _, _, rfl⟩ := Reloads.eq (reloads_create _ hc)
  exact .empty

/-! ## The induction over runs -/

section

variable {ipNumber : CString MAXIP → UInt32} {ok : State → Input → Prop} {I : State → Prop}
  {s s' : State} {inputs : List Input}

/-- **The invariant rule for runs of a PTM.** -/
theorem runs_invariant (hi : ∀ s, Initial s → I s)
    (hro : ∀ s i s', s.distillers.ListedIn s.distillerDB → I s → ok s i →
      Round { s with outcomes := i.outcomes, now := i.now } i.event s' → I s')
    (hs : Initial s) (h : Run (Guarded ok (step ipNumber)) s inputs s') :
    s'.distillers.ListedIn s'.distillerDB ∧ I s' := by
  refine h.invariant (I := fun s => s.distillers.ListedIn s.distillerDB ∧ I s) ?_
    ⟨registered_of_initial hs, hi s hs⟩
  rintro s i s' ⟨hre, hI⟩ ⟨hok, rounds, value, hd⟩
  have hr := round_of_dispatch (by exact hre.nodup) hd
  exact ⟨hr.registered_of hre, hro s i s' hre hI hok hr⟩

end

/-! ## Playing a run

Runs on given inputs can be computed. -/

section

variable (ipNumber : CString MAXIP → UInt32) (ok : State → Input → Prop)
  [∀ s i, Decidable (ok s i)]

/-- Play a list of inputs; `none` if a round faults, aborts or does not meet the condition. -/
def play (rounds : ℕ) : State → List Input → Option State
  | s, [] => some s
  | s, i :: inputs =>
    if ok s i then
      match dispatch ipNumber rounds i.event { s with outcomes := i.outcomes, now := i.now } with
      | some (.returned _, s') => play rounds s' inputs
      | _ => none
    else none

/-- The address `1/80`. -/
def sampleAddress : RemoteID := ⟨⟨[49], noNul_1, fits_1⟩, 80⟩

def playFrom (options : Options) (rounds : ℕ) (inputs : List Input) : Option State :=
  match create options.entries (State.start sampleAddress 0) with
  | some (true, s) => play ipNumber ok rounds s inputs
  | _ => none

variable {ipNumber ok}

lemma run_of_play {rounds : ℕ} {s s' : State} {inputs : List Input}
    (h : play ipNumber ok rounds s inputs = some s') :
    Run (Guarded ok (step ipNumber)) s inputs s' := by
  induction inputs generalizing s with
  | nil =>
    obtain rfl := Option.some.inj h
    exact .nil s
  | cons i inputs ih =>
    unfold play at h
    split_ifs at h with hok
    split at h
    · exact .cons ⟨hok, rounds, _, ‹_›⟩ (ih h)
    · cases h

end

/-! The runs below are played with an options file that has one entry, for the type `a`, and with
front ends and distillers that are numbered in the order in which they connect. -/

/-- The type `a`. -/
def typeA : DistillerType := ⟨[97], noNul_a, fits_a⟩

/-- The options file `dist.a: x`. -/
def optionsA : Options := ⟨[⟨typeA, [120]⟩], List.nodup_singleton _⟩

lemma exists_run_of_playFrom (ok : State → Input → Prop) [∀ s i, Decidable (ok s i)]
    (inputs : List Input) (p : State → Prop) [DecidablePred p]
    (h : (playFrom (fun _ => 0) ok optionsA 1 inputs).any (p ·) = true) :
    ∃ s s', Initial s ∧ Run (Guarded ok (step fun _ => 0)) s inputs s' ∧ p s' := by
  obtain ⟨s', hpl, hp⟩ := (Option.any_eq_true _ _).mp h
  unfold playFrom at hpl
  split at hpl
  · rename_i s hc
    exact ⟨s, s', ⟨_, _, _, _, hc⟩, run_of_play hpl, of_decide_eq_true hp⟩
  · cases hpl

/-- An event in a round in which all system calls succeed. -/
def calm (e : Event) : Input := ⟨e, [], 0⟩

def arrival (c : ℕ) (type : PTMPacketType) (id : UInt32) (data : Bytes)
    (h : data.length ≤ maxPacketLength) : Input :=
  calm (.packet c ⟨type.toWord, id, data, h⟩ 0)

lemma ten_le_maxPacketLength : 10 ≤ maxPacketLength := by decide

/-- A distiller of type `a` that listens at `1/80` registers with the text of its sleep status. -/
def registerA (c : ℕ) (id : UInt32) (status : UInt8) : Input :=
  arrival c .pktRegisterDistiller id [49, 47, 56, 48, 124, 97, 124, status, 124, 48]
    ten_le_maxPacketLength

/-- A distiller registers with a sleep status and reports a latency of 70, which its history of ten
reports makes an average of 7. -/
def registerAndReport (status : UInt8) : List Input :=
  [calm .accept, registerA 0 0 status,
    arrival 0 .pktDistillerLoad 0 [55, 48, 124, 48] (by decide)]

end Glomop.Ptm
