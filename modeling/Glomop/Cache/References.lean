import Glomop.Cache.PendingRequests

/-!
# Conservation of references

Every reference to a distiller belongs to a call in progress, a request, a connection object, or for
a moment the thread of a broken connection.  The *ledger* of a state says that each counter is the
number of references that are owned; each primitive operation has one lemma about it.
`DistillAsync` loses a reference when memory runs out (`exhausted_leaks`), and a connection can be
deleted before its thread has taken its reference; in a run without these, the references are
conserved (`references_of_run`).
-/

namespace Glomop.Cache

open Lib List Option Multiset GarbageCollectedObject Thread

/-! ## Who owns what -/

def Thread.distillers : Thread → Multiset ℕ
  | got _ d | created _ d _ | sending _ d _ _ | waiting d _ _ | disconnect _ d | removing _ d _
  | disconnected _ d | marked _ d | finished d => {d}
  | idle | looking _ | destroyed _ | forked _ | listening _ => 0

def Cause.connections : Cause → Multiset ℕ
  | failed _ => 0
  | broken c => {c}

def Thread.connections : Thread → Multiset ℕ
  | sending _ _ _ c | waiting _ _ c | listening c => {c}
  | disconnect w _ | removing w _ _ | disconnected w _ => w.connections
  | idle | looking _ | got _ _ | created _ _ _ | marked _ _ | finished _ | destroyed _
  | forked _ => 0

def Thread.takenOut : Thread → Option ℕ
  | removing (.failed _) d _ | disconnected (.failed _) d => some d
  | _ => none

variable {p : Thread}

lemma Thread.mem_distillers_of_takenOut {d : ℕ} (h : p.takenOut = some d) : d ∈ p.distillers := by
  unfold takenOut at h
  split at h
  · cases h
    exact Multiset.mem_singleton_self _
  · cases h
    exact Multiset.mem_singleton_self _
  · exact nomatch h

/-- A request that was returned to a client owns a reference to its distiller. -/
def DistillerRequest.distillers (R : DistillerRequest) : Multiset ℕ :=
  if R.outstanding = true then {R.dist} else 0

/-- A connection object owns a reference to its distiller until it is deleted. -/
def DistillerConnection.distillers (C : DistillerConnection) : Multiset ℕ :=
  if C.frees = 0 then {C.distiller} else 0

namespace Distilling

def distillerRefs (s : Distilling) : Multiset ℕ :=
  owned Thread.distillers s.threads + owned DistillerRequest.distillers s.requests +
    owned DistillerConnection.distillers s.connections

def connectionRefs (s : Distilling) : Multiset ℕ := owned Thread.connections s.threads

lemma mem_distillerRefs {s : Distilling} {t d : ℕ} (hp : s.threads[t]? = some p)
    (hd : d ∈ p.distillers) : d ∈ s.distillerRefs := by
  apply mem_add.mpr ∘ Or.inl
  apply mem_add.mpr ∘ Or.inl
  exact mem_of_le (le_owned hp) hd

/-- Each counter is the number of references, those that are owned and those in `X` and `Y`, which
are being moved. -/
structure Ledger (s : Distilling) (X Y : Multiset ℕ) : Prop where
  distiller_refs : ∀ {d : ℕ} {D : CachedDistiller}, s.distillers[d]? = some D →
    D.numberOfRefs = (s.distillerRefs + X).count d
  connection_refs : ∀ {c : ℕ} {C : DistillerConnection}, s.connections[c]? = some C →
    C.numberOfRefs = (s.connectionRefs + Y).count c
  distillers_lt : ∀ d ∈ s.distillerRefs + X, d < s.distillers.length
  connections_lt : ∀ c ∈ s.connectionRefs + Y, c < s.connections.length
  distiller_sound : ∀ {d : ℕ} {D : CachedDistiller}, s.distillers[d]? = some D → D.Sound
  connection_sound : ∀ {c : ℕ} {C : DistillerConnection}, s.connections[c]? = some C → C.Sound
  cached : ∀ {d : ℕ} {D : CachedDistiller}, s.distillers[d]? = some D → D.cached = true →
    D.isDeleted = false ∧ D.frees = 0
  current : ∀ {d : ℕ} {D : CachedDistiller} {c : ℕ}, s.distillers[d]? = some D →
    D.connection = some c →
    ∃ C : DistillerConnection, s.connections[c]? = some C ∧ C.distiller = d ∧
      C.isDeleted = false ∧ C.frees = 0
  uncached : ∀ {t d : ℕ} {p : Thread} {D : CachedDistiller}, s.threads[t]? = some p →
    p.takenOut = some d → s.distillers[d]? = some D → D.cached = false
  forked : ∀ {t c : ℕ} {C : DistillerConnection}, s.threads[t]? = some (.forked c) →
    s.connections[c]? = some C → C.frees = 0

namespace Ledger

variable {s s' : Distilling} {X X' Y Y' : Multiset ℕ} {t d c r : ℕ} {p p' : Thread}
  {D D' : CachedDistiller} {C C' : DistillerConnection} {R R' : DistillerRequest}

/-! ## The operations -/

section

variable (h : s.Ledger X Y)

include h

/-- A change of threads or requests that only moves references. -/
lemma of_refs (hd : s'.distillers = s.distillers) (hc : s'.connections = s.connections)
    (hr : s'.distillerRefs + X' = s.distillerRefs + X)
    (hr' : s'.connectionRefs + Y' = s.connectionRefs + Y)
    (hu : ∀ {t d : ℕ} {p : Thread} {D : CachedDistiller}, s'.threads[t]? = some p →
      p.takenOut = some d → s.distillers[d]? = some D → D.cached = false)
    (hf : ∀ {t c : ℕ} {C : DistillerConnection}, s'.threads[t]? = some (.forked c) →
      s.connections[c]? = some C → C.frees = 0) : s'.Ledger X' Y' := by
  refine ⟨fun hD => ?_, fun hC => ?_, ?_, ?_, fun hD => h.distiller_sound (hd ▸ hD),
    fun hC => h.connection_sound (hc ▸ hC), fun hD => h.cached (hd ▸ hD), fun hD hco => ?_,
    fun hq ht hD => hu hq ht (hd ▸ hD), fun hq hC => hf hq (hc ▸ hC)⟩
  · rw [hr]
    exact h.distiller_refs (hd ▸ hD)
  · rw [hr']
    exact h.connection_refs (hc ▸ hC)
  · rw [hr, hd]
    exact h.distillers_lt
  · rw [hr', hc]
    exact h.connections_lt
  · rw [hc]
    exact h.current (hd ▸ hD) hco

/-- **A thread moves on**, giving up some references and taking others. -/
theorem setThread (p' : Thread) (hp : s.threads[t]? = some p)
    (hX : X + p.distillers = X' + p'.distillers) (hY : Y + p.connections = Y' + p'.connections)
    (hu : ∀ (d : ℕ) (D : CachedDistiller), p'.takenOut = some d →
      s.distillers[d]? = some D → D.cached = false)
    (hf : ∀ c, p' ≠ .forked c) : (s.setThread t p').Ledger X' Y' := by
  have hr : (s.setThread t p').distillerRefs + X' = s.distillerRefs + X := by
    have hm := owned_set_move hp hX
    simp only [distillerRefs, Distilling.setThread]
    rw [add_right_comm, add_right_comm (owned Thread.distillers _), hm]
    abel
  have hr' : (s.setThread t p').connectionRefs + Y' = s.connectionRefs + Y := owned_set_move hp hY
  refine h.of_refs rfl rfl hr hr' (fun hq ht hD => ?_)
    fun hq hC => h.forked (getElem?_of_set hq (hf _).symm) hC
  rcases getElem?_set_inv hq with ⟨-, rfl⟩ | ⟨-, hq⟩
  · exact hu _ _ ht hD
  · exact h.uncached hq ht hD

lemma pos_of_thread (hp : s.threads[t]? = some p) (hd : d ∈ p.distillers)
    (hD : s.distillers[d]? = some D) : 0 < D.numberOfRefs := by
  rw [h.distiller_refs hD]
  exact count_pos.mpr (mem_add.mpr (.inl (mem_distillerRefs hp hd)))

lemma setDistiller (D' : CachedDistiller) (hD : s.distillers[d]? = some D)
    (hr : D'.numberOfRefs = (s.distillerRefs + X').count d)
    (ho : ∀ x, x ≠ d → X'.count x = X.count x) (hs : D'.Sound)
    (hca : D'.cached = true → D.cached = true ∧ D'.isDeleted = false ∧ D'.frees = 0)
    (hcu : ∀ c, D'.connection = some c →
      ∃ C, s.connections[c]? = some C ∧ C.distiller = d ∧ C.isDeleted = false ∧ C.frees = 0) :
    (s.setDistiller d D').Ledger X' Y := by
  refine ⟨fun hE => ?_, h.connection_refs, fun x hx => ?_, h.connections_lt, fun hE => ?_,
    h.connection_sound, fun hE hin => ?_, fun hE hc => ?_, fun hq ht hE => ?_, h.forked⟩
  · rcases getElem?_set_inv hE with ⟨rfl, rfl⟩ | ⟨hne, hE⟩
    · exact hr
    · rw [h.distiller_refs hE, count_add, count_add, ho _ hne.symm]
      rfl
  · show x < (s.distillers.set d D').length
    rw [length_set]
    by_cases hxd : x = d
    · rw [hxd]
      exact lt_of_getElem? hD
    · apply h.distillers_lt
      apply count_pos.mp
      rw [count_add, ← ho x hxd, ← count_add]
      exact count_pos.mpr hx
  · rcases getElem?_set_inv hE with ⟨-, rfl⟩ | ⟨-, hE⟩
    · exact hs
    · exact h.distiller_sound hE
  · rcases getElem?_set_inv hE with ⟨-, rfl⟩ | ⟨-, hE⟩
    · exact (hca hin).2
    · exact h.cached hE hin
  · rcases getElem?_set_inv hE with ⟨rfl, rfl⟩ | ⟨-, hE⟩
    · exact hcu _ hc
    · exact h.current hE hc
  · rcases getElem?_set_inv hE with ⟨rfl, rfl⟩ | ⟨-, hE⟩
    · apply Bool.eq_false_iff.mpr
      intro hin
      exact Bool.eq_false_iff.mp (h.uncached hq ht hD) (hca hin).1
    · exact h.uncached hq ht hE

lemma setDistiller_same (D' : CachedDistiller) (hD : s.distillers[d]? = some D)
    (hgc : D'.toGarbageCollectedObject = D.toGarbageCollectedObject)
    (hca : D'.cached = true → D.cached = true)
    (hco : ∀ c, D'.connection = some c → D.connection = some c) :
    (s.setDistiller d D').Ledger X Y := by
  refine h.setDistiller _ hD ?_ (fun _ _ => rfl) ?_ (fun hin => ⟨hca hin, ?_⟩)
    fun c hc => h.current hD (hco c hc)
  · rw [hgc]
    exact h.distiller_refs hD
  · rw [hgc]
    exact h.distiller_sound hD
  · rw [hgc]
    exact h.cached hD (hca hin)

lemma incrDistiller (hD : s.distillers[d]? = some D) (ha : D.frees = 0) :
    (s.setDistiller d (D.setObject D.incrReference)).Ledger ({d} + X) Y := by
  refine h.setDistiller _ hD ?_ (fun x hx => ?_) (.incrReference ha)
    (fun hin => ⟨hin, (h.cached hD hin).1, ha⟩) fun c hc => h.current hD hc
  · rw [count_add_singleton_add, ← h.distiller_refs hD]
    rfl
  · rw [count_add, Multiset.count_singleton, if_neg hx, zero_add]

end

lemma decrDistiller (h : s.Ledger ({d} + X) Y) (hD : s.distillers[d]? = some D) :
    (s.setDistiller d (D.setObject D.decrReference)).Ledger X Y := by
  have hco : D.numberOfRefs = (s.distillerRefs + X).count d + 1 := by
    rw [h.distiller_refs hD, count_add_singleton_add]
  have hr : D.decrReference.numberOfRefs = D.numberOfRefs - 1 := by
    unfold decrReference
    split_ifs <;> rfl
  refine h.setDistiller _ hD ?_ (fun x hx => ?_) ((h.distiller_sound hD).decrReference (by omega))
    (fun hin => ⟨hin, ?_⟩) fun c hc => h.current hD hc
  · show D.decrReference.numberOfRefs = _
    omega
  · rw [count_add, Multiset.count_singleton, if_neg hx, zero_add]
  · obtain ⟨hm, hf⟩ := h.cached hD hin
    show D.decrReference.isDeleted = false ∧ D.decrReference.frees = 0
    simp [decrReference, hm, hf]

section

variable (h : s.Ledger X Y)

include h

lemma markDistiller (hD : s.distillers[d]? = some D)
    (hpos : 0 < D.numberOfRefs) (hout : D.cached = false) :
    (s.setDistiller d (D.setObject D.markForDeletion)).Ledger X Y := by
  have hr : D.markForDeletion.numberOfRefs = D.numberOfRefs := by
    unfold markForDeletion
    split_ifs <;> rfl
  refine h.setDistiller _ hD ?_ (fun _ _ => rfl)
    (.markForDeletion ((h.distiller_sound hD).frees_eq_zero hpos)) (fun hin => ?_)
    fun c hc => h.current hD hc
  · show D.markForDeletion.numberOfRefs = _
    rw [hr, h.distiller_refs hD]
  · exact absurd hin (Bool.eq_false_iff.mp hout)

lemma setRequest (hR : s.requests[r]? = some R)
    (hX : X + R.distillers = X' + R'.distillers) : (s.setRequest r R').Ledger X' Y := by
  have hr : (s.setRequest r R').distillerRefs + X' = s.distillerRefs + X := by
    have hm := owned_set_move hR hX
    simp only [distillerRefs, Distilling.setRequest]
    rw [add_right_comm, add_assoc (owned Thread.distillers _), hm]
    abel
  exact h.of_refs rfl rfl hr rfl h.uncached h.forked

lemma addRequest (hR : R.distillers = 0) : (s.addRequest R).Ledger X Y := by
  have hr : (s.addRequest R).distillerRefs = s.distillerRefs := by
    simp [distillerRefs, Distilling.addRequest, owned_concat, hR]
  exact h.of_refs rfl rfl (congrArg (· + X) hr) rfl h.uncached h.forked

lemma addForked (hf : ∀ C, s.connections[c]? = some C → C.frees = 0) :
    (s.addThread (.forked c)).Ledger X Y := by
  have hr : (s.addThread (.forked c)).distillerRefs = s.distillerRefs := by
    simp [distillerRefs, addThread, owned_concat, Thread.distillers]
  have hr' : (s.addThread (.forked c)).connectionRefs = s.connectionRefs := by
    simp [connectionRefs, addThread, owned_concat, Thread.connections]
  refine h.of_refs rfl rfl (congrArg (· + X) hr) (congrArg (· + Y) hr') (fun hq ht hD => ?_)
    fun hq hC => ?_
  · rcases getElem?_concat_inv hq with ⟨-, rfl⟩ | hq
    · exact nomatch ht
    · exact h.uncached hq ht hD
  · rcases getElem?_concat_inv hq with ⟨-, hq⟩ | hq
    · obtain rfl := forked.inj hq
      exact hf _ hC
    · exact h.forked hq hC

lemma setConnection (hC : s.connections[c]? = some C)
    (hX : X + C.distillers = X' + C'.distillers)
    (hre : C'.numberOfRefs = (s.connectionRefs + Y').count c)
    (ho : ∀ x, x ≠ c → Y'.count x = Y.count x) (hs : C'.Sound)
    (hcu : ∀ d D, s.distillers[d]? = some D → D.connection = some c →
      C'.distiller = d ∧ C'.isDeleted = false ∧ C'.frees = 0)
    (hf : .forked c ∈ s.threads → C'.frees = 0) : (s.setConnection c C').Ledger X' Y' := by
  have hr' : (s.setConnection c C').distillerRefs + X' = s.distillerRefs + X := by
    have hm := owned_set_move hC hX
    simp only [distillerRefs, Distilling.setConnection]
    rw [add_assoc, hm]
    abel
  refine ⟨fun hD => ?_, fun hE => ?_, ?_, fun x hx => ?_, h.distiller_sound, fun hE => ?_, h.cached,
    fun hD hc => ?_, h.uncached, fun hq hE => ?_⟩
  · rw [hr']
    exact h.distiller_refs hD
  · rcases getElem?_set_inv hE with ⟨rfl, rfl⟩ | ⟨hne, hE⟩
    · exact hre
    · rw [h.connection_refs hE, count_add, count_add, ho _ hne.symm]
      rfl
  · rw [hr']
    exact h.distillers_lt
  · show x < (s.connections.set c C').length
    rw [length_set]
    by_cases hxc : x = c
    · rw [hxc]
      exact lt_of_getElem? hC
    · apply h.connections_lt
      apply count_pos.mp
      rw [count_add, ← ho x hxc, ← count_add]
      exact count_pos.mpr hx
  · rcases getElem?_set_inv hE with ⟨-, rfl⟩ | ⟨-, hE⟩
    · exact hs
    · exact h.connection_sound hE
  · obtain ⟨E, hE, hr⟩ := h.current hD hc
    rcases getElem?_set_or C' hC hE with ⟨rfl, -, hg⟩ | hg
    · exact ⟨C', hg, hcu _ _ hD hc⟩
    · exact ⟨E, hg, hr⟩
  · rcases getElem?_set_inv hE with ⟨rfl, rfl⟩ | ⟨-, hE⟩
    · exact hf (mem_of_getElem? hq)
    · exact h.forked hq hE

lemma incrConnection (hC : s.connections[c]? = some C) (ha : C.frees = 0) :
    (s.setConnection c (C.setObject C.incrReference)).Ledger X ({c} + Y) := by
  refine h.setConnection hC rfl ?_ (fun x hx => ?_) (.incrReference ha) (fun d D hD hc => ?_)
    fun _ => ha
  · rw [count_add_singleton_add, ← h.connection_refs hC]
    rfl
  · rw [count_add, Multiset.count_singleton, if_neg hx, zero_add]
  · obtain ⟨E, hE, hr⟩ := h.current hD hc
    cases hC.symm.trans hE
    exact hr

end

lemma updateConnection {f : GarbageCollectedObject → GarbageCollectedObject}
    (h : ∀ C X', s.connections[c]? = some C →
      X + C.distillers = X' + (C.setObject (f C.toGarbageCollectedObject)).distillers →
      (s.setConnection c (C.setObject (f C.toGarbageCollectedObject))).Ledger X' Y)
    (hf : ∀ C, s.connections[c]? = some C →
      (f C.toGarbageCollectedObject).frees = C.frees ∨
        C.frees = 0 ∧ (f C.toGarbageCollectedObject).frees = 1)
    (hs : s.updateConnection c f = some s') : s'.Ledger X Y := by
  obtain ⟨C, hC, hs⟩ := bind_eq_some_iff.mp hs
  split_ifs at hs with hsa
  · cases hs
    apply h C X hC
    simp only [DistillerConnection.distillers, DistillerConnection.setObject, hsa]
  · obtain ⟨hz, ho⟩ := (hf C hC).resolve_left hsa
    have hl := h C ({C.distiller} + X) hC (by
      simp [DistillerConnection.distillers, DistillerConnection.setObject, hz, ho, add_comm])
    obtain ⟨D, hD, rfl⟩ := updateDistiller_inv hs
    exact hl.decrDistiller hD

lemma decrConnection (h : s.Ledger X ({c} + Y)) (hf : .forked c ∉ s.threads)
    (hs : s.updateConnection c .decrReference = some s') : s'.Ledger X Y := by
  have hco {C : DistillerConnection} (hC : s.connections[c]? = some C) :
      C.numberOfRefs = (s.connectionRefs + Y).count c + 1 := by
    rw [h.connection_refs hC, count_add_singleton_add]
  have ha {C : DistillerConnection} (hC : s.connections[c]? = some C) : C.frees = 0 := by
    apply (h.connection_sound hC).frees_eq_zero
    rw [hco hC]
    exact Nat.succ_pos _
  refine updateConnection (fun C X' hC hX => ?_) (fun C hC => ?_) hs
  · refine h.setConnection hC hX ?_ (fun x hx => ?_)
      ((h.connection_sound hC).decrReference (by rw [hco hC]; exact Nat.succ_pos _))
      (fun d D hD hc => ?_) fun hmem => absurd hmem hf
    · show C.decrReference.numberOfRefs = _
      have hr : C.decrReference.numberOfRefs = C.numberOfRefs - 1 := by
        unfold decrReference
        split_ifs <;> rfl
      rw [hr, hco hC, Nat.add_sub_cancel]
    · rw [count_add, Multiset.count_singleton, if_neg hx, zero_add]
    · obtain ⟨E, hE, hd, hm, hfr⟩ := h.current hD hc
      cases hC.symm.trans hE
      refine ⟨hd, ?_⟩
      show C.decrReference.isDeleted = false ∧ C.decrReference.frees = 0
      simp [decrReference, hm, hfr]
  · unfold decrReference
    split_ifs
    · refine .inr ⟨ha hC, ?_⟩
      show C.frees + 1 = 1
      rw [ha hC]
    · exact .inl rfl

lemma markConnection (h : s.Ledger X Y) (hf : .forked c ∉ s.threads)
    (ha : ∀ C, s.connections[c]? = some C → C.frees = 0)
    (hn : ∀ (d : ℕ) (D : CachedDistiller), s.distillers[d]? = some D → D.connection ≠ some c)
    (hs : s.updateConnection c .markForDeletion = some s') : s'.Ledger X Y := by
  refine updateConnection (fun C X' hC hX => ?_) (fun C hC => ?_) hs
  · refine h.setConnection hC hX ?_ (fun _ _ => rfl) (.markForDeletion (ha C hC))
      (fun d D hD hc => absurd hc (hn d D hD)) fun hmem => absurd hmem hf
    show C.markForDeletion.numberOfRefs = _
    rw [← h.connection_refs hC]
    unfold markForDeletion
    split_ifs <;> rfl
  · unfold markForDeletion
    split_ifs
    · refine .inr ⟨ha C hC, ?_⟩
      show C.frees + 1 = 1
      rw [ha C hC]
    · exact .inl rfl

lemma addConnection (h : s.Ledger ({d} + X) Y) : (s.addConnection ⟨.new, d⟩).Ledger X Y := by
  have hr : (s.addConnection ⟨.new, d⟩).distillerRefs + X = s.distillerRefs + ({d} + X) := by
    simp only [distillerRefs, Distilling.addConnection, owned_concat]
    rw [show DistillerConnection.distillers ⟨.new, d⟩ = {d} from rfl]
    abel
  refine ⟨fun hD => ?_, fun hE => ?_, ?_, fun x hx => ?_, h.distiller_sound, fun hE => ?_, h.cached,
    fun hD hc => ?_, h.uncached, fun hq hE => ?_⟩
  · rw [hr]
    exact h.distiller_refs hD
  · rcases getElem?_concat_inv hE with ⟨rfl, rfl⟩ | hE
    · apply Eq.symm
      apply Multiset.count_eq_zero.mpr
      intro hmem
      exact lt_irrefl _ (h.connections_lt _ hmem)
    · exact h.connection_refs hE
  · rw [hr]
    exact h.distillers_lt
  · have hlt := h.connections_lt x hx
    show x < (s.connections ++ [_]).length
    rw [length_append]
    exact Nat.lt_add_right _ hlt
  · rcases getElem?_concat_inv hE with ⟨-, rfl⟩ | hE
    · exact sound_new
    · exact h.connection_sound hE
  · obtain ⟨C, hC, hre⟩ := h.current hD hc
    refine ⟨C, ?_, hre⟩
    show (s.connections ++ [_])[_]? = some C
    rw [getElem?_append_left (lt_of_getElem? hC)]
    exact hC
  · rcases getElem?_concat_inv hE with ⟨-, rfl⟩ | hE
    · rfl
    · exact h.forked hq hE

/-- **Connecting**, successfully or not. -/
theorem connect (h : s.Ledger X Y) (hD : s.distillers[d]? = some D) (ha : D.frees = 0) :
    (s.connect d D).Ledger X Y := by
  have hlt := lt_of_getElem? hD
  have hm := (h.incrDistiller hD ha).addConnection
  have hD' :
      ((s.setDistiller d (D.setObject D.incrReference)).addConnection ⟨.new, d⟩).distillers[d]? =
      some (D.setObject D.incrReference) := getElem?_set_self hlt
  have hco := hm.distiller_refs hD'
  have hf := hm.cached hD'
  have hs := hm.distiller_sound hD'
  have hse := hm.setDistiller { D.setObject D.incrReference with
      connection := some s.connections.length } hD' hco (fun _ _ => rfl)
    hs (fun hin => ⟨hin, hf hin⟩) (fun c hc => by
      cases hc
      exact ⟨⟨.new, d⟩, getElem?_concat_length, rfl, rfl, rfl⟩)
  have hst : s.connect d D = ((s.setDistiller d (D.setObject D.incrReference)).addConnection
      ⟨.new, d⟩).setDistiller d { D.setObject D.incrReference with
        connection := some s.connections.length } := by
    simp [Distilling.connect, Distilling.setDistiller, Distilling.addConnection]
  rw [hst]
  exact hse

lemma enter (h : s.Ledger 0 0) {asynchronous : Bool} (hs : s.enter t asynchronous = some s') :
    s'.Ledger 0 0 := by
  obtain ⟨hp, ⟨⟩⟩ := ite_none_right_eq_some.mp hs
  exact h.setThread _ hp rfl rfl nofun nofun

lemma find (h : s.Ledger 0 0) {found : Option ℕ} (hs : s.find t found = some s') :
    s'.Ledger 0 0 := by
  unfold Distilling.find at hs
  split at hs
  · next k hp =>
      cases hs
      exact h.setThread _ hp rfl rfl nofun nofun
  · next k d hp =>
      simp only [bind_eq_bind, bind_eq_some_iff, ite_none_right_eq_some] at hs
      obtain ⟨D, hD, hin, hs⟩ := hs
      obtain ⟨E, hE, rfl⟩ := updateDistiller_inv hs
      cases hD.symm.trans hE
      have ht := h.incrDistiller hD (h.cached hD hin).2
      exact ht.setThread (.got k d) hp rfl rfl nofun nofun
  · exact nomatch hs

lemma create (h : s.Ledger 0 0) {k : Kind} (hp : s.threads[t]? = some (.got k d))
    (hs : s.create t k d = some s') : s'.Ledger 0 0 := by
  obtain ⟨D, hD, he⟩ := bind_eq_some_iff.mp hs
  cases he
  have ha := h.addRequest (R := ⟨d, false, false, false⟩) rfl
  have hl := ha.setDistiller_same { D with distMutex := true } hD rfl id fun _ => id
  exact hl.setThread _ hp rfl rfl nofun nofun

end Ledger

/-! ## The condition -/

/-- The connection that a step gives up. -/
def released (s : Distilling) : Event → Option ℕ
  | .send t o =>
    match s.threads[t]?, o with
    | some (.sending .sync _ _ _), .ok => none
    | some (.sending _ _ _ c), _ => some c
    | _, _ => none
  | .wake t _ | .exit t =>
    match s.threads[t]? with
    | some (.waiting _ _ c) | some (.listening c) => some c
    | _ => none
  | .disconnect t =>
    match s.threads[t]? with
    | some (.removing _ d none) =>
      (s.distillers[d]?).bind fun D => if D.pendingRequests = [] then D.connection else none
    | _ => none
  | _ => none

def exhausted (s : Distilling) : Event → Bool
  | .attempt t .noMemory | .send t .noMemory =>
    match s.threads[t]? with
    | some (.got (.async _) _) | some (.sending (.async _) _ _ _) => true
    | _ => false
  | _ => false

/-- No attempt of an asynchronous call ends for lack of memory, and no connection is given up before
its thread has started. -/
def Kept (s : Distilling) (e : Event) : Prop :=
  s.exhausted e = false ∧ ∀ c, s.released e = some c → .forked c ∉ s.threads

instance (s : Distilling) (e : Event) : Decidable (s.Kept e) :=
  decidable_of_iff (s.exhausted e = false ∧ ∀ c ∈ s.released e, .forked c ∉ s.threads) Iff.rfl

namespace Ledger

variable {s s' : Distilling} {t d c r : ℕ}

lemma attempt (h : s.Ledger 0 0) {o : Outcome} (hok : s.exhausted (.attempt t o) = false)
    (hs : s.attempt t o = some s') : s'.Ledger 0 0 := by
  unfold Distilling.attempt at hs
  split at hs
  · next k d hp =>
      obtain ⟨D, hD, hs⟩ := bind_eq_some_iff.mp hs
      have ha : D.frees = 0 :=
        (h.distiller_sound hD).frees_eq_zero (h.pos_of_thread hp (Multiset.mem_singleton_self d) hD)
      have hc := h.connect hD ha
      split_ifs at hs
      · cases hs
        exact h.setThread _ hp rfl rfl nofun nofun
      · split at hs
        · exact h.create hp hs
        · have hf := hc.addForked (c := s.connections.length) fun C hC => by
            rw [show (s.connect d D).connections[s.connections.length]? = some ⟨.new, d⟩ from
              getElem?_concat_length] at hC
            cases hC
            rfl
          refine hf.create ?_ hs
          show (s.threads ++ [_])[t]? = _
          rw [getElem?_append_left (lt_of_getElem? hp)]
          exact hp
        · cases hs
          exact hc.setThread _ hp rfl rfl nofun nofun
        · cases hs
          cases k with
          | sync => exact hc.setThread _ hp rfl rfl nofun nofun
          | async i => simp [exhausted, hp] at hok
  · exact nomatch hs

lemma add (h : s.Ledger 0 0) (hs : s.add t = some s') : s'.Ledger 0 0 := by
  unfold Distilling.add at hs
  split at hs
  · next k d r hp =>
      simp only [bind_eq_bind, bind_eq_some_iff] at hs
      obtain ⟨D, hD, c, hc, hs⟩ := hs
      obtain ⟨C, hC, rfl⟩ := updateConnection_incr_inv hs
      obtain ⟨E, hE, -, -, ha⟩ := h.current hD hc
      cases hC.symm.trans hE
      have hl := h.setDistiller_same { D with
        pendingRequests := r :: D.pendingRequests, distMutex := false } hD rfl id fun _ => id
      have ht := hl.incrConnection hC ha
      exact ht.setThread (.sending k d r c) hp rfl rfl nofun nofun
  · exact nomatch hs

lemma deleteRequest {X Y : Multiset ℕ} (h : s.Ledger X Y) (hs : s.deleteRequest r = some s') :
    s'.Ledger X Y := by
  obtain ⟨R, hR, he⟩ := bind_eq_some_iff.mp hs
  cases he
  exact h.setRequest hR rfl

lemma threads_deleteRequest (hs : s.deleteRequest r = some s') : s'.threads = s.threads := by
  obtain ⟨R, -, he⟩ := bind_eq_some_iff.mp hs
  cases he
  rfl

section

variable (h : s.Ledger 0 0)

include h

lemma leave (p' : Thread) (hp : s.threads[t]? = some p)
    (hd : p'.distillers = p.distillers) (hc : p.connections = {c}) (hc' : p'.connections = 0)
    (hout : p'.takenOut = none) (hf : ∀ c, p' ≠ .forked c) (hs : .forked c ∉ s.threads)
    {s1 : Distilling} (hde : s.deleteRequest r = some s1)
    (hst : (s1.setThread t p').updateConnection c .decrReference = some s') : s'.Ledger 0 0 := by
  have hth := threads_deleteRequest hde
  have hm : (s1.setThread t p').Ledger 0 ({c} + 0) := by
    apply (h.deleteRequest hde).setThread p' (hth ▸ hp)
    · rw [hd]
    · rw [hc, hc', add_zero, zero_add, add_zero]
    · intro d D ht
      rw [hout] at ht
      exact nomatch ht
    · exact hf
  refine hm.decrConnection (fun hmem => ?_) hst
  rcases mem_or_eq_of_mem_set hmem with hmem | heq
  · exact hs (hth ▸ hmem)
  · exact hf c heq.symm

lemma send (ho : s.Owners) {o : Outcome} (hok : s.Kept (.send t o))
    (hs : s.send t o = some s') : s'.Ledger 0 0 := by
  unfold Distilling.send at hs
  split at hs
  · next k d r c hp =>
      split at hs
      · cases hs
        exact h.setThread _ hp rfl rfl nofun nofun
      · next i =>
          have hst := hok.2 c (by simp [released, hp])
          obtain ⟨R, hR, hs⟩ := bind_eq_some_iff.mp hs
          obtain ⟨S, hS, hk, hdi⟩ := ho.known hp rfl
          cases hR.symm.trans hS
          obtain rfl := hdi d rfl
          have hl : (s.setThread t .idle).Ledger {R.dist} ({c} + 0) :=
            h.setThread .idle hp rfl rfl nofun nofun
          have hg : ((s.setRequest r { R with outstanding := true }).setThread t .idle).Ledger 0
              ({c} + 0) := by
            apply hl.setRequest hR
            simp [DistillerRequest.distillers, hk]
          refine hg.decrConnection (fun hmem => ?_) hs
          rcases mem_or_eq_of_mem_set hmem with hmem | heq
          · exact hst hmem
          · exact nomatch heq
      · have hst := hok.2 c (by simp [released, hp])
        obtain ⟨s1, hd, hs⟩ := bind_eq_some_iff.mp hs
        exact h.leave (.disconnect (.failed k) d) hp rfl rfl rfl rfl nofun hst hd hs
      · have hst := hok.2 c (by simp [released, hp])
        obtain ⟨s1, hd, hs⟩ := bind_eq_some_iff.mp hs
        cases k with
        | sync => exact h.leave (.finished d) hp rfl rfl rfl rfl nofun hst hd hs
        | async i =>
          have hm := hok.1
          simp [exhausted, hp] at hm
  · exact nomatch hs

lemma wake {sendError : Bool} (hok : s.Kept (.wake t sendError))
    (hs : s.wake t sendError = some s') : s'.Ledger 0 0 := by
  unfold Distilling.wake at hs
  split at hs
  · next d r c hp =>
      have hst : .forked c ∉ s.threads := hok.2 c (by simp [released, hp])
      simp only [bind_eq_bind, bind_eq_some_iff, ite_none_right_eq_some] at hs
      obtain ⟨R, -, -, s1, hd, hs⟩ := hs
      cases sendError with
      | true =>
        exact h.leave (.disconnect (.failed .sync) d) hp rfl rfl rfl rfl nofun hst hd hs
      | false => exact h.leave (.finished d) hp rfl rfl rfl rfl nofun hst hd hs
  · exact nomatch hs

lemma stopRequest {R : DistillerRequest} (hR : s.requests[r]? = some R)
    (hst : s.stopRequest r R = some s') : s'.Ledger 0 0 := by
  rcases stopRequest_inv hst with ⟨-, rfl⟩ | ⟨-, D, hD, rfl⟩
  · exact h
  · have hs : (s.setRequest r { R with stopWaiting := true }).Ledger 0 0 := h.setRequest hR rfl
    exact hs.setDistiller_same _ hD rfl id fun _ => id

lemma settle (hs : s.settle r = some s') : s'.Ledger 0 0 := by
  obtain ⟨R, hR, hs⟩ := bind_eq_some_iff.mp hs
  split_ifs at hs
  exact h.stopRequest hR hs

lemma destroy (hs : s.destroy t r = some s') : s'.Ledger 0 0 := by
  simp only [Distilling.destroy, bind_eq_bind, bind_eq_some_iff, ite_none_right_eq_some] at hs
  obtain ⟨R, hR, ⟨hp, hout⟩, s1, hst, R1, hR1, hs⟩ := hs
  obtain rfl := requests_stopRequest hR hst hR1
  obtain ⟨D, hD, rfl⟩ := updateDistiller_inv hs
  rw [← threads_stopRequest hst] at hp
  have hm : (s1.setThread t (.destroyed r)).Ledger 0 0 :=
    (h.stopRequest hR hst).setThread (.destroyed r) hp rfl rfl (by rintro _ _ ⟨⟩) (by rintro _ ⟨⟩)
  have hl : ((s1.setRequest r { R with stopWaiting := true, outstanding := false }).setThread t
      (.destroyed r)).Ledger ({R.dist} + 0) 0 := by
    apply hm.setRequest hR1
    simp [DistillerRequest.distillers, hout]
  exact hl.decrDistiller hD

lemma evDistillerConnectionBroken (hs : s.evDistillerConnectionBroken r = some s') :
    s'.Ledger 0 0 ∧ s'.threads = s.threads := by
  obtain ⟨R, hR, hs⟩ := bind_eq_some_iff.mp hs
  split_ifs at hs
  · cases hs
    exact ⟨⟨h.distiller_refs, h.connection_refs, h.distillers_lt, h.connections_lt,
      h.distiller_sound, h.connection_sound, h.cached, h.current, h.uncached, h.forked⟩, rfl⟩
  · cases hs
    exact ⟨h.setRequest hR rfl, rfl⟩

lemma lock {w : Cause} (hp : s.threads[t]? = some (.disconnect w d))
    (hs : s.lock t w d = some s') : s'.Ledger 0 0 := by
  obtain ⟨D, hD, hs⟩ := bind_eq_some_iff.mp hs
  split_ifs at hs
  cases hs
  have hl := h.setDistiller_same
    { D with distMutex := true, cached := w.keeps D.cached } hD rfl
    (fun hin => by
      cases w with
      | failed k => cases hin
      | broken c => exact hin) fun _ => id
  refine hl.setThread (.removing w d none) hp rfl rfl (fun d' E ht hE => ?_) nofun
  cases w with
  | failed k =>
    cases ht
    rcases getElem?_set_inv hE with ⟨-, rfl⟩ | ⟨hne, -⟩
    · rfl
    · exact absurd rfl hne
  | broken c => cases ht

lemma removeHead {w : Cause} (hp : s.threads[t]? = some (.removing w d none))
    (hok : s.Kept (.disconnect t)) (hs : s.removeHead t w d = some s') : s'.Ledger 0 0 := by
  obtain ⟨D, hD, hs⟩ := bind_eq_some_iff.mp hs
  -- a distiller that a failed call has taken out of the cache is not put back
  have hout {d' : ℕ} {D' E : CachedDistiller} (hE : (s.distillers.set d D')[d']? = some E)
      (ht : (disconnected w d).takenOut = some d') (hsa : D'.cached = D.cached) :
      E.cached = false := by
    cases w with
    | failed k =>
      cases ht
      rcases getElem?_set_inv hE with ⟨-, rfl⟩ | ⟨hne, -⟩
      · rw [hsa]
        exact h.uncached hp rfl hD
      · exact absurd rfl hne
    | broken c => cases ht
  split at hs
  · cases hs
    have hu := h.setDistiller_same { D with distMutex := false } hD rfl id fun _ => id
    exact hu.setThread _ hp rfl rfl (fun d' E ht hE => hout hE ht rfl) nofun
  · next r rest _ _ =>
      cases hs
      have hsh := h.setDistiller_same { D with pendingRequests := rest } hD rfl id fun _ => id
      refine hsh.setThread (.removing w d (some r)) hp rfl rfl (fun d' E ht hE => ?_) nofun
      refine hout hE ?_ rfl
      cases w with
      | failed k => exact ht
      | broken c => cases ht
  · next c hco he =>
      have hst : .forked c ∉ s.threads := hok.2 c (by simp [released, hp, hD, hco, he])
      obtain ⟨C, hC, hd, -, ha⟩ := h.current hD hco
      have hcl := h.setDistiller_same
        { D with connection := none, distMutex := false } hD rfl id
        nofun
      have hm := hcl.setThread (.disconnected w d) hp rfl rfl
        (fun d' E ht hE => hout hE ht rfl) nofun
      refine hm.markConnection (fun hmem => ?_) (fun E hE => ?_) (fun d' E hE hc => ?_) hs
      · rcases mem_or_eq_of_mem_set hmem with hmem | heq
        · exact hst hmem
        · cases heq
      · cases hC.symm.trans hE
        exact ha
      · rcases getElem?_set_inv hE with ⟨-, rfl⟩ | ⟨hne, hE⟩
        · cases hc
        · obtain ⟨C', hC', hd', -⟩ := h.current hE hc
          cases hC.symm.trans hC'
          exact hne (hd.symm.trans hd')

lemma disconnect (hok : s.Kept (.disconnect t))
    (hs : s.disconnect t = some s') : s'.Ledger 0 0 := by
  unfold Distilling.disconnect at hs
  split at hs
  · next hp => exact h.lock hp hs
  · next hp => exact h.removeHead hp hok hs
  · next w d r hp =>
      obtain ⟨s1, hto, he⟩ := bind_eq_some_iff.mp hs
      cases he
      obtain ⟨h1, hth⟩ := h.evDistillerConnectionBroken hto
      rw [← hth] at hp
      refine h1.setThread _ hp rfl rfl (fun d' E ht hE => h1.uncached hp ?_ hE) nofun
      cases w with
      | failed k => exact ht
      | broken c => exact nomatch ht
  · exact nomatch hs

lemma release (p' : Thread) (hp : s.threads[t]? = some p)
    (hd : p.distillers = {d}) (hd' : p'.distillers = 0) (hc : p.connections = p'.connections)
    (hout : p'.takenOut = none) (hf : ∀ c, p' ≠ .forked c)
    (hs : (s.setThread t p').updateDistiller d .decrReference = some s') : s'.Ledger 0 0 := by
  obtain ⟨D, hD, rfl⟩ := updateDistiller_inv hs
  have hl : (s.setThread t p').Ledger ({d} + 0) 0 := by
    refine h.setThread p' hp ?_ ?_ (fun d D ht => ?_) hf
    · rw [hd, hd', add_zero, zero_add, add_zero]
    · rw [hc]
    · rw [hout] at ht
      exact nomatch ht
  exact hl.decrDistiller hD

lemma proceed (hs : s.proceed t = some s') : s'.Ledger 0 0 := by
  unfold Distilling.proceed at hs
  split at hs
  · next k d hp =>
      obtain ⟨D, hD, rfl⟩ := updateDistiller_inv hs
      have hm := h.markDistiller hD (h.pos_of_thread hp (Multiset.mem_singleton_self d) hD)
        (h.uncached hp rfl hD)
      exact hm.setThread (.marked k d) hp rfl rfl nofun nofun
  · next c d hp => exact h.release (.listening c) hp rfl rfl rfl rfl nofun hs
  · next k d hp =>
      cases k with
      | sync => exact h.release (.looking .sync) hp rfl rfl rfl rfl nofun hs
      | async i =>
        by_cases hi : i + 1 < 5
        · rw [Kind.again, if_pos hi] at hs
          exact h.release (.looking (.async (i + 1))) hp rfl rfl rfl rfl nofun hs
        · rw [Kind.again, if_neg hi] at hs
          exact h.release .idle hp rfl rfl rfl rfl nofun hs
  · next d hp => exact h.release .idle hp rfl rfl rfl rfl nofun hs
  · next r hp =>
      have hmo : (s.setThread t .idle).Ledger 0 0 := h.setThread .idle hp rfl rfl nofun nofun
      exact hmo.deleteRequest hs
  · exact nomatch hs

lemma start (hs : s.start t = some s') : s'.Ledger 0 0 := by
  unfold Distilling.start at hs
  split at hs
  · next c hp =>
      obtain ⟨C, hC, rfl⟩ := updateConnection_incr_inv hs
      have ht := h.incrConnection hC (h.forked hp hC)
      exact ht.setThread (.listening c) hp rfl rfl nofun nofun
  · exact nomatch hs

lemma breakConnection (hs : s.breakConnection t = some s') : s'.Ledger 0 0 := by
  unfold Distilling.breakConnection at hs
  split at hs
  · next c hp =>
      obtain ⟨C, hC, hs⟩ := bind_eq_some_iff.mp hs
      obtain ⟨D, hD, rfl⟩ := updateDistiller_inv hs
      -- the connection is there, and owns a reference to the distiller
      have ht : C.frees = 0 := by
        apply (h.connection_sound hC).frees_eq_zero
        rw [h.connection_refs hC]
        apply count_pos.mpr
        apply mem_add.mpr ∘ Or.inl
        exact mem_of_le (le_owned hp) (Multiset.mem_singleton_self c)
      have ha : D.frees = 0 := by
        apply (h.distiller_sound hD).frees_eq_zero
        rw [h.distiller_refs hD]
        apply count_pos.mpr
        apply mem_add.mpr ∘ Or.inl
        apply mem_add.mpr ∘ Or.inr
        apply mem_of_le (le_owned hC)
        rw [DistillerConnection.distillers, if_pos ht]
        exact Multiset.mem_singleton_self _
      have hta := h.incrDistiller hD ha
      exact hta.setThread (.disconnect (.broken c) C.distiller) hp rfl rfl nofun nofun
  · exact nomatch hs

lemma exit (hok : s.Kept (.exit t)) (hs : s.exit t = some s') : s'.Ledger 0 0 := by
  unfold Distilling.exit at hs
  split at hs
  · next c hp =>
      have hst : .forked c ∉ s.threads := hok.2 c (by simp [released, hp])
      have hl : (s.setThread t .idle).Ledger 0 ({c} + 0) := h.setThread .idle hp rfl rfl nofun nofun
      refine hl.decrConnection (fun hmem => ?_) hs
      rcases mem_or_eq_of_mem_set hmem with hmem | heq
      · exact hst hmem
      · exact nomatch heq
  · exact nomatch hs

lemma discover : s.discover.Ledger 0 0 := by
  refine ⟨fun hD => ?_, h.connection_refs, fun d hd => ?_, h.connections_lt, fun hD => ?_,
    h.connection_sound, fun hD hin => ?_, fun hD hc => ?_, fun hq ht hD => ?_, h.forked⟩
  · rcases getElem?_concat_inv hD with ⟨rfl, rfl⟩ | hD
    · apply Eq.symm
      apply Multiset.count_eq_zero.mpr
      intro hmem
      exact lt_irrefl _ (h.distillers_lt _ hmem)
    · exact h.distiller_refs hD
  · show d < (s.distillers ++ [_]).length
    rw [length_append]
    exact Nat.lt_add_right _ (h.distillers_lt d hd)
  · rcases getElem?_concat_inv hD with ⟨-, rfl⟩ | hD
    · exact sound_new
    · exact h.distiller_sound hD
  · rcases getElem?_concat_inv hD with ⟨-, rfl⟩ | hD
    · exact ⟨rfl, rfl⟩
    · exact h.cached hD hin
  · rcases getElem?_concat_inv hD with ⟨-, rfl⟩ | hD
    · exact nomatch hc
    · exact h.current hD hc
  · rcases getElem?_concat_inv hD with ⟨rfl, rfl⟩ | hD
    · -- the thread owns a reference, so that the distiller is not new
      have hmem := mem_distillerRefs hq (mem_distillers_of_takenOut ht)
      exact absurd (h.distillers_lt _ (mem_add.mpr (.inl hmem))) (lt_irrefl _)
    · exact h.uncached hq ht hD

/-- **One step keeps the ledger.** -/
theorem step {e : Event} (ho : s.Owners) (hs : Guarded Kept step s e s') : s'.Ledger 0 0 := by
  obtain ⟨hok, hs⟩ := hs
  unfold Distilling.step next at hs
  cases e with
  | enter t asynchronous => exact h.enter hs
  | find t found => exact h.find hs
  | attempt t o => exact h.attempt hok.1 hs
  | add t => exact h.add hs
  | send t o => exact h.send ho hok hs
  | wake t sendError => exact h.wake hok hs
  | settle r => exact h.settle hs
  | destroy t r => exact h.destroy hs
  | disconnect t => exact h.disconnect hok hs
  | proceed t => exact h.proceed hs
  | start t => exact h.start hs
  | breakConnection t => exact h.breakConnection hs
  | exit t => exact h.exit hok hs
  | discover =>
    cases hs
    exact h.discover

end

lemma initial (clients : ℕ) : (initial clients).Ledger 0 0 := by
  have hth {f : Thread → Multiset ℕ} (hf : f .idle = 0) :
      owned f (Distilling.initial clients).threads = 0 := by
    simp [owned, Distilling.initial, hf]
  have hr : (Distilling.initial clients).distillerRefs = 0 := by
    rw [distillerRefs, hth rfl]
    rfl
  have hi {t : ℕ} {p : Thread} (hp : (Distilling.initial clients).threads[t]? = some p) :
      p = .idle := List.eq_of_mem_replicate (mem_of_getElem? hp)
  refine ⟨by rintro _ _ ⟨⟩, by rintro _ _ ⟨⟩, fun d hd => ?_, fun c hc => ?_, by rintro _ _ ⟨⟩,
    by rintro _ _ ⟨⟩, by rintro _ _ ⟨⟩, by rintro _ _ _ ⟨⟩, fun hq ht _ => ?_, fun hq _ => ?_⟩
  · rw [hr] at hd
    exact absurd hd (notMem_zero d)
  · rw [connectionRefs, hth rfl] at hc
    exact absurd hc (notMem_zero c)
  · obtain rfl := hi hq
    cases ht
  · cases hi hq

end Ledger

variable {s : Distilling}

/-- No call that is in progress holds a distiller, and no request is with a client. -/
def Quiescent (s : Distilling) : Prop :=
  (∀ p ∈ s.threads, p.distillers = 0) ∧ ∀ R ∈ s.requests, R.outstanding = false

/-- The number of connection objects that hold a distiller. -/
def holders (s : Distilling) (d : ℕ) : ℕ :=
  s.connections.countP fun C => C.frees = 0 ∧ C.distiller = d

/-- A call that is in progress, or a client with a request, holds a distiller. -/
def Held (s : Distilling) (d : ℕ) : Prop :=
  (∃ p ∈ s.threads, d ∈ p.distillers) ∨ ∃ R ∈ s.requests, R.outstanding = true ∧ R.dist = d

lemma ledger_of_run {clients : ℕ} {es : List Event}
    (hrun : Run (Guarded Kept step) (initial clients) es s) : s.Owners ∧ s.Ledger 0 0 :=
  hrun.invariant (I := fun s => s.Owners ∧ s.Ledger 0 0)
    (fun _ _ _ h hs => ⟨h.1.step hs.2, h.2.step h.1 hs⟩)
    ⟨owners_initial clients, .initial clients⟩

/-- **References are conserved.**  In every run of any number of clients whose steps are `Kept`:
when no call holds a distiller and no request is with a client, the count of each distiller is the
number of connection objects that hold it; no distiller is freed twice, or while a caller holds it;
and one that is marked is freed as soon as no connection holds it. -/
theorem references_of_run {clients : ℕ} {es : List Event}
    (hrun : Run (Guarded Kept step) (initial clients) es s) :
    (s.Quiescent → ∀ d D, s.distillers[d]? = some D → D.numberOfRefs = s.holders d ∧
      (D.isDeleted = true → s.holders d = 0 → D.frees = 1)) ∧
    ∀ d D, s.distillers[d]? = some D → D.frees ≤ 1 ∧ (s.Held d → D.frees = 0) := by
  obtain ⟨-, h⟩ := ledger_of_run hrun
  refine ⟨fun ⟨hth, hre⟩ d D hD => ?_, fun d D hD => ⟨(h.distiller_sound hD).frees_le,
    fun hh => (h.distiller_sound hD).frees_eq_zero ?_⟩⟩
  · have hc : D.numberOfRefs = s.holders d := by
      rw [h.distiller_refs hD, distillerRefs, owned_eq_zero hth, owned_eq_zero fun R hR => ?_,
        zero_add, zero_add, add_zero, holders, ← count_owned_ite]
      · rfl
      · rw [DistillerRequest.distillers, hre R hR]
        rfl
    refine ⟨hc, fun hm hn => ?_⟩
    exact (h.distiller_sound hD).frees_eq_one hm (hc.trans hn)
  · rcases hh with ⟨p, hp, hd⟩ | ⟨R, hR, hout, rfl⟩
    · obtain ⟨t, ht⟩ := getElem?_of_mem hp
      exact h.pos_of_thread ht hd hD
    · obtain ⟨r, hr⟩ := getElem?_of_mem hR
      rw [h.distiller_refs hD]
      apply count_pos.mpr
      apply mem_add.mpr ∘ Or.inl
      apply mem_add.mpr ∘ Or.inl
      apply mem_add.mpr ∘ Or.inr
      apply mem_of_le (le_owned hr)
      rw [DistillerRequest.distillers, if_pos hout]
      exact Multiset.mem_singleton_self _

/-- A client cannot connect to the only distiller, takes it out of the cache, and finds no other:
the distiller was marked, and is freed. -/
theorem references_of_run_freed :
    ∃ s D, Run (Guarded Kept step) (initial 1) [.discover, .enter 0 false, .find 0 (some 0),
        .attempt 0 .error, .disconnect 0, .disconnect 0, .proceed 0, .proceed 0, .find 0 none] s ∧
      s.Quiescent ∧ s.distillers[0]? = some D ∧ D.isDeleted = true ∧ D.numberOfRefs = s.holders 0 ∧
      D.frees = 1 := by
  have hr : (replay Kept next (initial 1) [.discover, .enter 0 false, .find 0 (some 0),
      .attempt 0 .error, .disconnect 0, .disconnect 0, .proceed 0, .proceed 0, .find 0 none]).any
      (fun s => s = ⟨[⟨⟨0, true, 1⟩, none, [], false, false⟩], [⟨⟨0, false, 1⟩, 0⟩], [], [.idle],
        false⟩) = true := by
    decide +kernel
  obtain ⟨s, hrun, hs⟩ := exists_guarded_of_decide hr
  have hq : s.Quiescent := by
    rw [hs]
    refine ⟨fun p hp => ?_, nofun⟩
    obtain rfl := List.mem_singleton.mp hp
    rfl
  have hD : s.distillers[0]? = some ⟨⟨0, true, 1⟩, none, [], false, false⟩ := by rw [hs]; rfl
  obtain ⟨hc, hf⟩ := (references_of_run hrun).1 hq 0 _ hD
  have hn : s.holders 0 = 0 := hc.symm
  exact ⟨s, _, hrun, hq, hD, rfl, hc, hf rfl hn⟩

/-- A client calls `DistillAsync`, and there is no memory for the connection: the call has returned,
but the distiller counts two references, of which only the connection object owns one. -/
theorem exhausted_leaks :
    ∃ s D, Run step (initial 1)
      [.discover, .enter 0 true, .find 0 (some 0), .attempt 0 .noMemory] s ∧
      s.Quiescent ∧ s.distillers[0]? = some D ∧ D.numberOfRefs = 2 ∧ s.holders 0 = 1 := by
  have hr : (replay (fun _ _ => True) next (initial 1) [.discover, .enter 0 true,
      .find 0 (some 0), .attempt 0 .noMemory]).any
      (fun s => s = ⟨[⟨⟨2, false, 0⟩, some 0, [], false, true⟩], [⟨⟨0, false, 0⟩, 0⟩], [], [.idle],
        false⟩) = true := by
    decide +kernel
  obtain ⟨s, hrun, rfl⟩ := exists_run_of_decide hr
  refine ⟨_, _, hrun, ⟨fun p hp => ?_, nofun⟩, rfl, rfl, rfl⟩
  obtain rfl := List.mem_singleton.mp hp
  rfl

end Distilling

end Glomop.Cache
