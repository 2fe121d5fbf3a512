import Glomop.Cache.Distilling

/-!
# Pending requests

A request has to be taken off its distiller's list before it is deleted.  A failed `Send` does not
do so (`unsentRequest_touched`); a timer may expire before the request is put on the list; and
`RemoveAllRequests_` holds no lock between taking a request off the list and telling it.  Nothing
else goes wrong (`pending_of_run`).
-/

namespace Glomop.Cache

open Lib List Option

def Thread.target : Thread → Option ℕ
  | created _ d _ | sending _ d _ _ | waiting d _ _ => some d
  | _ => none

namespace Distilling

variable {s s' : Distilling} {t d r : ℕ} {p p' : Thread} {e : Event} {R R' : DistillerRequest}

/-! ## Owners -/

structure Owners (s : Distilling) : Prop where
  known : ∀ {t r : ℕ} {p : Thread}, s.threads[t]? = some p → p.request = some r →
    ∃ R : DistillerRequest, s.requests[r]? = some R ∧ R.outstanding = false ∧
      ∀ d, p.target = some d → R.dist = d
  unique : ∀ {t t' r : ℕ} {p p' : Thread}, s.threads[t]? = some p → s.threads[t']? = some p' →
    p.request = some r → p'.request = some r → t = t'

/-- What a change needs to keep the owners: every thread works on the request it worked on before,
or on none, and each of those requests is still its own. -/
lemma Owners.congr (h : s.Owners)
    (ht : ∀ {t r : ℕ} {p' : Thread}, s'.threads[t]? = some p' → p'.request = some r →
      ∃ p, s.threads[t]? = some p ∧ p.request = some r ∧ p'.target = p.target ∧
        ∀ R, s.requests[r]? = some R → R.outstanding = false →
          ∃ R', s'.requests[r]? = some R' ∧ R'.outstanding = false ∧ R'.dist = R.dist) :
    s'.Owners := by
  constructor
  · intro t r p' hp' hr
    obtain ⟨p, hp, hr, hta, hk⟩ := ht hp' hr
    obtain ⟨R, hR, hout, hdi⟩ := h.known hp hr
    obtain ⟨R', hR', ho', hd'⟩ := hk R hR hout
    refine ⟨R', hR', ho', fun d hd => ?_⟩
    rw [hd', hdi d (hta ▸ hd)]
  · intro t t' r p p' hp hp' hr hr'
    obtain ⟨q, hq, hr, -⟩ := ht hp hr
    obtain ⟨q', hq', hr', -⟩ := ht hp' hr'
    exact h.unique hq hq' hr hr'

lemma Owners.sameRequests (h : s.Owners) (hs : s.SameRequests s') : s'.Owners := by
  apply h.congr
  intro t r p' hp' hr
  rw [hs.threads] at hp'
  rw [hs.requests]
  exact ⟨p', hp', hr, rfl, fun R hR hout => ⟨R, hR, hout, rfl⟩⟩

lemma Owners.setThread (h : s.Owners) (p' : Thread) (hp : s.threads[t]? = some p)
    (hre : ∀ r, p'.request = some r → p.request = some r ∧ p'.target = p.target) :
    (s.setThread t p').Owners := by
  apply h.congr
  intro t' r q hq hr
  rcases getElem?_set_inv hq with ⟨rfl, rfl⟩ | ⟨-, hq⟩
  · obtain ⟨hr', ht⟩ := hre r hr
    exact ⟨p, hp, hr', ht, fun R hR hout => ⟨R, hR, hout, rfl⟩⟩
  · exact ⟨q, hq, hr, rfl, fun R hR hout => ⟨R, hR, hout, rfl⟩⟩

lemma Owners.setRequest (h : s.Owners) (R' : DistillerRequest) (hR : s.requests[r]? = some R)
    (hd : R'.dist = R.dist)
    (hout : ∀ (t : ℕ) (p : Thread), s.threads[t]? = some p → p.request = some r →
      R'.outstanding = false) : (s.setRequest r R').Owners := by
  apply h.congr
  intro t r' p hp hr
  refine ⟨p, hp, hr, rfl, fun S hS hk => ?_⟩
  rcases getElem?_set_or R' hR hS with ⟨rfl, rfl, hg⟩ | hg
  · exact ⟨R', hg, hout t p hp hr, hd⟩
  · exact ⟨S, hg, hk, rfl⟩

lemma Owners.setRequest_same (h : s.Owners) (R' : DistillerRequest) (hR : s.requests[r]? = some R)
    (hd : R'.dist = R.dist) (hout : R'.outstanding = R.outstanding) :
    (s.setRequest r R').Owners := by
  refine h.setRequest _ hR hd fun t p hp hr => ?_
  obtain ⟨S, hS, hk, -⟩ := h.known hp hr
  cases hR.symm.trans hS
  rw [hout, hk]

lemma stopRequest_inv (h : s.stopRequest r R = some s') :
    R.stopWaiting = true ∧ s' = s ∨
      R.stopWaiting = false ∧ ∃ D, s.distillers[R.dist]? = some D ∧
        s' = (s.setRequest r { R with stopWaiting := true }).setDistiller R.dist
          { D with pendingRequests := D.pendingRequests.erase r } := by
  unfold stopRequest at h
  split_ifs at h with hs
  · exact .inl ⟨hs, (some.inj h).symm⟩
  · obtain ⟨D, hD, he⟩ := bind_eq_some_iff.mp h
    exact .inr ⟨by simpa using hs, D, hD, (some.inj he).symm⟩

lemma Owners.stopRequest (h : s.Owners) (hR : s.requests[r]? = some R)
    (hs : s.stopRequest r R = some s') : s'.Owners := by
  rcases stopRequest_inv hs with ⟨-, rfl⟩ | ⟨-, D, -, rfl⟩
  · exact h
  · have hse := h.setRequest_same { R with stopWaiting := true } hR rfl rfl
    exact ⟨hse.known, hse.unique⟩

lemma requests_stopRequest {R1 : DistillerRequest} (hR : s.requests[r]? = some R)
    (hs : s.stopRequest r R = some s') (hR1 : s'.requests[r]? = some R1) :
    R1 = { R with stopWaiting := true } := by
  rcases stopRequest_inv hs with ⟨hst, rfl⟩ | ⟨-, D, -, rfl⟩
  · cases hR.symm.trans hR1
    cases R
    subst hst
    rfl
  · have hse : (s.requests.set r { R with stopWaiting := true })[r]? = some R1 := hR1
    rw [getElem?_set_self (lt_of_getElem? hR)] at hse
    exact (some.inj hse).symm

lemma threads_stopRequest (hs : s.stopRequest r R = some s') : s'.threads = s.threads := by
  rcases stopRequest_inv hs with ⟨-, rfl⟩ | ⟨-, D, -, rfl⟩
  · rfl
  · rfl

lemma Owners.create {k : Kind} {more : List Thread} (h : s.Owners)
    (hp : s.threads[t]? = some (.got k d)) (hm : ∀ p ∈ more, p.request = none ∧ p.held = none) :
    (({ s with threads := s.threads ++ more }.addRequest ⟨d, false, false, false⟩).setThread t
      (.created k d s.requests.length)).Owners := by
  have ht {t' r : ℕ} {q : Thread}
      (hq : ((s.threads ++ more).set t (.created k d s.requests.length))[t']? = some q)
      (hr : q.request = some r) :
      t' = t ∧ r = s.requests.length ∧ q.target = some d ∨
        s.threads[t']? = some q ∧ r < s.requests.length := by
    rcases getElem?_set_inv hq with ⟨rfl, rfl⟩ | ⟨hne, hq⟩
    · exact .inl ⟨rfl, (some.inj hr).symm, rfl⟩
    · rw [getElem?_append] at hq
      split_ifs at hq
      · obtain ⟨R, hR, -⟩ := h.known hq hr
        exact .inr ⟨hq, lt_of_getElem? hR⟩
      · rw [(hm q (mem_of_getElem? hq)).1] at hr
        exact nomatch hr
  constructor
  · intro t' r q hq hr
    rcases ht hq hr with ⟨-, rfl, hta⟩ | ⟨hq, hlt⟩
    · refine ⟨⟨d, false, false, false⟩, getElem?_concat_length, rfl, fun d' hd => ?_⟩
      exact some.inj (hta.symm.trans hd)
    · obtain ⟨R, hR, hre⟩ := h.known hq hr
      refine ⟨R, ?_, hre⟩
      show (s.requests ++ [_])[r]? = some R
      rw [getElem?_append_left hlt]
      exact hR
  · intro t1 t2 r q1 q2 hq1 hq2 hr1 hr2
    rcases ht hq1 hr1 with ⟨rfl, rfl, -⟩ | ⟨hq1, hlt⟩
    · rcases ht hq2 hr2 with ⟨rfl, -⟩ | ⟨-, hlt⟩
      · rfl
      · exact absurd hlt (lt_irrefl _)
    · rcases ht hq2 hr2 with ⟨-, rfl, -⟩ | ⟨hq2, -⟩
      · exact absurd hlt (lt_irrefl _)
      · exact h.unique hq1 hq2 hr1 hr2

lemma Owners.destroy (h : s.Owners) (hR : s.requests[r]? = some R) (hout : R.outstanding = true) :
    ((s.setRequest r { R with outstanding := false }).setThread t (.destroyed r)).Owners := by
  have hf {t' : ℕ} {q : Thread} (hq : s.threads[t']? = some q) : q.request ≠ some r := by
    intro hr
    obtain ⟨S, hS, hk, -⟩ := h.known hq hr
    cases hR.symm.trans hS
    rw [hout] at hk
    exact nomatch hk
  have hs : (s.setRequest r { R with outstanding := false }).Owners :=
    h.setRequest _ hR rfl fun _ _ hq hr => absurd hr (hf hq)
  constructor
  · intro t' r' q hq hr
    rcases getElem?_set_inv hq with ⟨-, rfl⟩ | ⟨-, hq⟩
    · cases hr
      exact ⟨_, getElem?_set_self (lt_of_getElem? hR), rfl, nofun⟩
    · exact hs.known hq hr
  · intro t1 t2 r' q1 q2 hq1 hq2 hr1 hr2
    rcases getElem?_set_inv hq1 with ⟨rfl, rfl⟩ | ⟨-, hq1⟩
    · cases hr1
      rcases getElem?_set_inv hq2 with ⟨rfl, rfl⟩ | ⟨-, hq2⟩
      · rfl
      · exact absurd hr2 (hf hq2)
    · rcases getElem?_set_inv hq2 with ⟨rfl, rfl⟩ | ⟨-, hq2⟩
      · cases hr2
        exact absurd hr1 (hf hq1)
      · exact h.unique hq1 hq2 hr1 hr2

/-- **One step keeps the owners.** -/
theorem Owners.step (h : s.Owners) (hsp : s.step e s') : s'.Owners := by
  cases change_of_step hsp with
  | move hp _ _ hr _ hs =>
    refine (h.setThread _ hp fun r hr' => ?_).sameRequests hs
    rw [hr] at hr'
    exact nomatch hr'
  | create more hp hmo hs => exact (h.create hp hmo).sameRequests hs
  | @add t d r c k D _ hp hD hs =>
    have hm := h.setThread (.sending k d r c) hp fun r hr => ⟨hr, rfl⟩
    have hl : ((s.setDistiller d { D with
        pendingRequests := r :: D.pendingRequests, distMutex := false }).setThread t
        (.sending k d r c)).Owners := ⟨hm.known, hm.unique⟩
    exact hl.sameRequests hs
  | wait hp => exact h.setThread _ hp fun r hr => ⟨hr, rfl⟩
  | @returned t d r c i R _ hp hR hs =>
    have hm := h.setThread .idle hp nofun
    have hre : ((s.setRequest r { R with outstanding := true }).setThread t .idle).Owners := by
      refine hm.setRequest { R with outstanding := true } hR rfl fun t' q hq hr => ?_
      rcases getElem?_set_inv hq with ⟨-, rfl⟩ | ⟨hne, hq⟩
      · exact nomatch hr
      · exact absurd (h.unique hp hq rfl hr) hne
    exact hre.sameRequests hs
  | @discard _ t r p p' R _ hp hr _ _ hr' _ hR hs =>
    have hd := h.setRequest_same { R with deleted := true } hR rfl rfl
    refine Owners.sameRequests (hd.setThread p' hp fun x hx => ?_) hs
    rw [hr'] at hx
    exact nomatch hx
  | settle hR _ hst => exact h.stopRequest hR hst
  | destroy hp hR hout hst hR1 hs =>
    obtain rfl := requests_stopRequest hR hst hR1
    exact ((h.stopRequest hR hst).destroy hR1 hout).sameRequests hs
  | @take t d r w rest D hp hD hli =>
    have hm := h.setThread (.removing w d (some r)) hp nofun
    exact ⟨hm.known, hm.unique⟩
  | @notify t d r w s1 hp ht =>
    obtain ⟨R, hR, ht⟩ := bind_eq_some_iff.mp ht
    split_ifs at ht
    · cases ht
      have hm := h.setThread (.removing w d none) hp nofun
      exact ⟨hm.known, hm.unique⟩
    · cases ht
      have ht := h.setRequest_same { R with stopWaiting := true } hR rfl rfl
      exact ht.setThread _ hp nofun
  | discover => exact ⟨h.known, h.unique⟩

lemma owners_initial (clients : ℕ) : (initial clients).Owners := by
  have hi {t : ℕ} {p : Thread} (hp : (initial clients).threads[t]? = some p) : p = .idle :=
    eq_of_mem_replicate (mem_of_getElem? hp)
  constructor
  · intro t r p hp hr
    obtain rfl := hi hp
    exact nomatch hr
  · intro t t' r p p' hp hp' hr hr'
    obtain rfl := hi hp
    exact nomatch hr

/-! ## The lists -/

end Distilling

/-- A request of the distiller `d` is there, and waits. -/
def Waits (requests : List DistillerRequest) (d r : ℕ) : Prop :=
  ∃ R : DistillerRequest, requests[r]? = some R ∧ R.dist = d ∧ R.deleted = false ∧
    R.stopWaiting = false

def Unlisted (pending : List (List ℕ)) (r : ℕ) : Prop :=
  ∀ {d : ℕ} {l : List ℕ}, pending[d]? = some l → r ∉ l

structure PendingSound (threads : List Thread) (requests : List DistillerRequest)
    (pending : List (List ℕ)) (touchedDeleted : Bool) : Prop where
  waits : ∀ {d r : ℕ} {l : List ℕ}, pending[d]? = some l → r ∈ l → Waits requests d r
  nodup : ∀ {d : ℕ} {l : List ℕ}, pending[d]? = some l → l.Nodup
  created : ∀ {t d r : ℕ} {k : Kind}, threads[t]? = some (.created k d r) →
    Waits requests d r ∧ Unlisted pending r
  destroyed : ∀ {t r : ℕ}, threads[t]? = some (.destroyed r) →
    ∃ R : DistillerRequest, requests[r]? = some R ∧ R.stopWaiting = true
  held : ∀ {t r : ℕ} {p : Thread}, threads[t]? = some p → p.held = some r →
    (∃ R : DistillerRequest, requests[r]? = some R ∧ R.deleted = false) ∧ Unlisted pending r ∧
      ∀ (t' : ℕ) (k : Kind) (d : ℕ), threads[t']? ≠ some (.created k d r)
  untouched : touchedDeleted = false

namespace PendingSound

variable {threads : List Thread} {requests : List DistillerRequest} {pending : List (List ℕ)}
  {touchedDeleted : Bool} {t d r : ℕ} {p p' : Thread} {R R' : DistillerRequest} {l : List ℕ}

section

variable (h : PendingSound threads requests pending touchedDeleted)

include h

lemma eq_of_mem {d' : ℕ} {l' : List ℕ}
    (hl : pending[d]? = some l) (hr : r ∈ l) (hl' : pending[d']? = some l') (hr' : r ∈ l') :
    d = d' := by
  obtain ⟨R, hR, hd, -⟩ := h.waits hl hr
  obtain ⟨S, hS, hd', -⟩ := h.waits hl' hr'
  cases hR.symm.trans hS
  rw [← hd, hd']

lemma unlisted_of_stopWaiting
    (hR : requests[r]? = some R) (hs : R.stopWaiting = true) : Unlisted pending r := by
  intro d l hl hr
  obtain ⟨S, hS, -, -, hw⟩ := h.waits hl hr
  cases hR.symm.trans hS
  rw [hs] at hw
  exact nomatch hw

lemma setThread (p' : Thread)
    (hcr : ∀ k d r, p' ≠ .created k d r)
    (hd : ∀ r, p' = .destroyed r →
      ∃ R : DistillerRequest, requests[r]? = some R ∧ R.stopWaiting = true)
    (hh : p'.held = none) (t : ℕ) :
    PendingSound (threads.set t p') requests pending touchedDeleted where
  waits := h.waits
  nodup := h.nodup
  created hq := h.created (getElem?_of_set hq (hcr _ _ _).symm)
  destroyed hq := by
    rcases getElem?_set_inv hq with ⟨-, heq⟩ | ⟨-, hq⟩
    · exact hd _ heq.symm
    · exact h.destroyed hq
  held hq hr := by
    rcases getElem?_set_inv hq with ⟨-, rfl⟩ | ⟨-, hq⟩
    · rw [hh] at hr
      exact nomatch hr
    · obtain ⟨ht, ho, hn⟩ := h.held hq hr
      exact ⟨ht, ho, fun t' k d hc => hn t' k d (getElem?_of_set hc (hcr _ _ _).symm)⟩
  untouched := h.untouched

lemma setRequest (R' : DistillerRequest)
    (hR : requests[r]? = some R) (hd : R'.dist = R.dist)
    (hwa : R'.deleted = false ∧ R'.stopWaiting = false ∨
      Unlisted pending r ∧ ∀ (t : ℕ) (k : Kind) (d : ℕ), threads[t]? ≠ some (.created k d r))
    (hh : ∀ (t : ℕ) (p : Thread), threads[t]? = some p → p.held = some r → R'.deleted = false)
    (hst : R.stopWaiting = true → R'.stopWaiting = true) :
    PendingSound threads (requests.set r R') pending touchedDeleted := by
  -- a request that waits still waits, where the change allows it
  have hk {d x : ℕ} (hw : Waits requests d x)
      (hx : r = x → R'.deleted = false ∧ R'.stopWaiting = false) :
      Waits (requests.set r R') d x := by
    obtain ⟨S, hS, hre⟩ := hw
    rcases getElem?_set_or R' hR hS with ⟨heq, rfl, hg⟩ | hg
    · exact ⟨R', hg, hd.trans hre.1, hx heq⟩
    · exact ⟨S, hg, hre⟩
  refine ⟨fun hl hr => ?_, h.nodup, fun hq => ?_, @fun t x hq => ?_, @fun t x p hq hr => ?_,
    h.untouched⟩
  · refine hk (h.waits hl hr) ?_
    rintro rfl
    exact hwa.resolve_right fun ho => ho.1 hl hr
  · obtain ⟨hw, ho⟩ := h.created hq
    refine ⟨hk hw ?_, ho⟩
    rintro rfl
    exact hwa.resolve_right fun hn => hn.2 _ _ _ hq
  · obtain ⟨S, hS, hs⟩ := h.destroyed hq
    rcases getElem?_set_or R' hR hS with ⟨-, rfl, hg⟩ | hg
    · exact ⟨R', hg, hst hs⟩
    · exact ⟨S, hg, hs⟩
  · obtain ⟨⟨S, hS, ht⟩, hre⟩ := h.held hq hr
    refine ⟨?_, hre⟩
    rcases getElem?_set_or R' hR hS with ⟨rfl, -, hg⟩ | hg
    · exact ⟨R', hg, hh t p hq hr⟩
    · exact ⟨S, hg, ht⟩

lemma setRequest_same (R' : DistillerRequest) (hR : requests[r]? = some R) (hdi : R'.dist = R.dist)
    (hd : R'.deleted = R.deleted) (hst : R'.stopWaiting = R.stopWaiting) :
    PendingSound threads (requests.set r R') pending touchedDeleted := by
  refine h.setRequest R' hR hdi ?_ (fun t p hp hr => ?_) fun hs => hst.trans hs
  · rw [hd, hst]
    by_cases hwa : R.deleted = false ∧ R.stopWaiting = false
    · exact .inl hwa
    · have hn {d : ℕ} (hw : Waits requests d r) : False := by
        obtain ⟨S, hS, -, hre⟩ := hw
        cases hR.symm.trans hS
        exact hwa hre
      exact .inr ⟨fun hl hr => hn (h.waits hl hr), fun t k d hc => hn (h.created hc).1⟩
  · obtain ⟨⟨S, hS, ht⟩, -⟩ := h.held hp hr
    cases hR.symm.trans hS
    exact hd.trans ht

lemma setPending {l' : List ℕ} (hl : pending[d]? = some l) (hs : l'.Sublist l) :
    PendingSound threads requests (pending.set d l') touchedDeleted := by
  have ho {r : ℕ} (hr : Unlisted pending r) : Unlisted (pending.set d l') r := by
    intro d' m hm hmem
    rcases getElem?_set_inv hm with ⟨-, rfl⟩ | ⟨-, hm⟩
    · exact hr hl (hs.subset hmem)
    · exact hr hm hmem
  refine ⟨fun hm hr => ?_, fun hm => ?_, fun hq => ?_, h.destroyed, fun hq hr => ?_, h.untouched⟩
  · rcases getElem?_set_inv hm with ⟨rfl, rfl⟩ | ⟨-, hm⟩
    · exact h.waits hl (hs.subset hr)
    · exact h.waits hm hr
  · rcases getElem?_set_inv hm with ⟨-, rfl⟩ | ⟨-, hm⟩
    · exact (h.nodup hl).sublist hs
    · exact h.nodup hm
  · obtain ⟨hw, hr⟩ := h.created hq
    exact ⟨hw, ho hr⟩
  · obtain ⟨ht, hr, hn⟩ := h.held hq hr
    exact ⟨ht, ho hr, hn⟩

lemma create {k : Kind} {more : List Thread}
    (hm : ∀ p ∈ more, p.request = none ∧ p.held = none) (t d : ℕ) :
    PendingSound ((threads ++ more).set t (.created k d requests.length))
      (requests ++ [⟨d, false, false, false⟩]) pending touchedDeleted := by
  have hg {r : ℕ} {R : DistillerRequest} (hR : requests[r]? = some R) :
      (requests ++ [⟨d, false, false, false⟩])[r]? = some R := by
    rw [getElem?_append_left (lt_of_getElem? hR)]
    exact hR
  have hold {d' r : ℕ} (hw : Waits requests d' r) :
      Waits (requests ++ [⟨d, false, false, false⟩]) d' r := by
    obtain ⟨R, hR, hre⟩ := hw
    exact ⟨R, hg hR, hre⟩
  -- the other threads are old, or own nothing
  have ht {t' : ℕ} {q : Thread} (hq : (threads ++ more)[t']? = some q) :
      threads[t']? = some q ∨ q.request = none ∧ q.held = none := by
    rw [getElem?_append] at hq
    split_ifs at hq
    · exact .inl hq
    · exact .inr (hm q (mem_of_getElem? hq))
  refine ⟨fun hl hr => hold (h.waits hl hr), h.nodup, fun hq => ?_, fun hq => ?_,
    fun hq hr => ?_, h.untouched⟩
  · rcases getElem?_set_inv hq with ⟨-, heq⟩ | ⟨-, hq⟩
    · obtain ⟨-, rfl, rfl⟩ := Thread.created.inj heq
      refine ⟨⟨_, getElem?_concat_length, rfl, rfl, rfl⟩, fun hl hr => ?_⟩
      obtain ⟨R, hR, -⟩ := h.waits hl hr
      exact lt_irrefl _ (lt_of_getElem? hR)
    · rcases ht hq with hq | ⟨hn, -⟩
      · obtain ⟨hw, ho⟩ := h.created hq
        exact ⟨hold hw, ho⟩
      · exact nomatch hn
  · rcases ht (getElem?_of_set hq nofun) with hq | ⟨hn, -⟩
    · obtain ⟨R, hR, hs⟩ := h.destroyed hq
      exact ⟨R, hg hR, hs⟩
    · exact nomatch hn
  · rcases getElem?_set_inv hq with ⟨-, rfl⟩ | ⟨-, hq⟩
    · exact nomatch hr
    · rcases ht hq with hq | ⟨-, hn⟩
      · obtain ⟨⟨R, hR, hth⟩, ho, hne⟩ := h.held hq hr
        refine ⟨⟨R, hg hR, hth⟩, ho, fun t' k' d' hc => ?_⟩
        rcases getElem?_set_inv hc with ⟨-, heq⟩ | ⟨-, hc⟩
        · obtain ⟨-, -, rfl⟩ := Thread.created.inj heq
          exact lt_irrefl _ (lt_of_getElem? hR)
        · rcases ht hc with hc | ⟨hn, -⟩
          · exact hne t' k' d' hc
          · exact nomatch hn
      · rw [hn] at hr
        exact nomatch hr

lemma add {k : Kind} {c : ℕ} (hp : threads[t]? = some (.created k d r)) (hl : pending[d]? = some l)
    (hu : ∀ (t' : ℕ) (k' : Kind) (d' : ℕ), threads[t']? = some (.created k' d' r) → t' = t) :
    PendingSound (threads.set t (.sending k d r c)) requests (pending.set d (r :: l))
      touchedDeleted := by
  obtain ⟨hw, ho⟩ := h.created hp
  -- the other requests that are off the lists stay off
  have hs {x : ℕ} (hx : Unlisted pending x) (hne : x ≠ r) :
      Unlisted (pending.set d (r :: l)) x := by
    intro d' m hm hmem
    rcases getElem?_set_inv hm with ⟨-, rfl⟩ | ⟨-, hm⟩
    · rcases mem_cons.mp hmem with heq | hmem
      · exact hne heq
      · exact hx hl hmem
    · exact hx hm hmem
  have hmo := h.setThread (.sending k d r c) nofun nofun rfl t
  refine ⟨fun hm hr => ?_, fun hm => ?_, fun hq => ?_, hmo.destroyed, fun hq hr => ?_, h.untouched⟩
  · rcases getElem?_set_inv hm with ⟨rfl, rfl⟩ | ⟨-, hm⟩
    · rcases mem_cons.mp hr with rfl | hr
      · exact hw
      · exact h.waits hl hr
    · exact h.waits hm hr
  · rcases getElem?_set_inv hm with ⟨-, rfl⟩ | ⟨-, hm⟩
    · exact nodup_cons.mpr ⟨ho hl, h.nodup hl⟩
    · exact h.nodup hm
  · rcases getElem?_set_inv hq with ⟨-, heq⟩ | ⟨hne, hold⟩
    · exact nomatch heq
    · obtain ⟨hw', ho'⟩ := h.created hold
      refine ⟨hw', hs ho' ?_⟩
      rintro rfl
      exact hne (hu _ _ _ hold).symm
  · obtain ⟨ht, ho', hn⟩ := hmo.held hq hr
    refine ⟨ht, hs ho' ?_, hn⟩
    rintro rfl
    rcases getElem?_set_inv hq with ⟨-, rfl⟩ | ⟨-, hold⟩
    · exact nomatch hr
    · exact (h.held hold hr).2.2 _ _ _ hp

lemma stop (hR : requests[r]? = some R) (hl : pending[R.dist]? = some l)
    (hn : ∀ (t : ℕ) (k : Kind) (d : ℕ), threads[t]? ≠ some (.created k d r)) :
    PendingSound threads (requests.set r { R with stopWaiting := true })
      (pending.set R.dist (l.erase r)) touchedDeleted := by
  have he := h.setPending hl (erase_sublist (a := r))
  refine he.setRequest { R with stopWaiting := true } hR rfl
    (.inr ⟨fun hm hmem => ?_, hn⟩) (fun t p hp hr => ?_) (fun _ => rfl)
  · rcases getElem?_set_inv hm with ⟨-, rfl⟩ | ⟨hne, hm⟩
    · exact Nodup.not_mem_erase (h.nodup hl) hmem
    · obtain ⟨S, hS, hd, -⟩ := h.waits hm hmem
      cases hR.symm.trans hS
      exact hne hd
  · obtain ⟨⟨S, hS, ht⟩, -⟩ := h.held hp hr
    cases hR.symm.trans hS
    exact ht

lemma take {w : Cause} (hl : pending[d]? = some (r :: l)) (t : ℕ) :
    PendingSound (threads.set t (.removing w d (some r))) requests (pending.set d l)
      touchedDeleted := by
  have hs := h.setPending hl (sublist_cons_self r l)
  obtain ⟨R, hR, hd, ht, -⟩ := h.waits hl (.head _)
  have ho : Unlisted (pending.set d l) r := by
    intro d' m hm hmem
    rcases getElem?_set_inv hm with ⟨-, rfl⟩ | ⟨hne, hm⟩
    · exact (nodup_cons.mp (h.nodup hl)).1 hmem
    · exact hne (h.eq_of_mem hl (.head _) hm hmem)
  have hn (t' : ℕ) (k : Kind) (d' : ℕ) : threads[t']? ≠ some (.created k d' r) :=
    fun hc => (h.created hc).2 hl (.head _)
  refine ⟨hs.waits, hs.nodup, fun hq => hs.created (getElem?_of_set hq nofun),
    fun hq => hs.destroyed (getElem?_of_set hq nofun), fun hq hr => ?_, h.untouched⟩
  rcases getElem?_set_inv hq with ⟨-, rfl⟩ | ⟨-, hq⟩
  · cases hr
    exact ⟨⟨R, hR, ht⟩, ho, fun t' k d' hc => hn t' k d' (getElem?_of_set hc nofun)⟩
  · obtain ⟨ht', ho', hn'⟩ := hs.held hq hr
    exact ⟨ht', ho', fun t' k d' hc => hn' t' k d' (getElem?_of_set hc nofun)⟩

lemma discover : PendingSound threads requests (pending ++ [[]]) touchedDeleted := by
  have hmem {d r : ℕ} {l : List ℕ} (hl : (pending ++ [[]])[d]? = some l) (hr : r ∈ l) :
      pending[d]? = some l := by
    rcases getElem?_concat_inv hl with ⟨-, rfl⟩ | hl
    · exact absurd hr not_mem_nil
    · exact hl
  refine ⟨fun hl hr => h.waits (hmem hl hr) hr, fun hl => ?_, fun hq => ?_, h.destroyed,
    fun hq hr => ?_, h.untouched⟩
  · rcases getElem?_concat_inv hl with ⟨-, rfl⟩ | hl
    · exact nodup_nil
    · exact h.nodup hl
  · obtain ⟨hw, ho⟩ := h.created hq
    exact ⟨hw, fun hl hr => ho (hmem hl hr) hr⟩
  · obtain ⟨ht, ho, hn⟩ := h.held hq hr
    exact ⟨ht, fun hl hr => ho (hmem hl hr) hr, hn⟩

end

end PendingSound

def Thread.unlisted : Thread → Option ℕ
  | created _ _ r => some r
  | _ => none

namespace Distilling

variable {s s' : Distilling} {e : Event}

def Event.settled : Event → Option ℕ
  | settle r => some r
  | _ => none

/-- No request that cannot be sent is on a list, no request is deleted that `RemoveAllRequests_` has
just taken off its list, and neither a reply nor a timeout reaches a request that is not yet on its
list. -/
def Orderly (s : Distilling) (e : Event) : Prop :=
  (∀ r ∈ s.unsent e, ∀ D ∈ s.distillers, r ∉ D.pendingRequests) ∧
    (∀ r ∈ s.discarded e, ∀ p ∈ s.threads, p.held ≠ some r) ∧
      ∀ r ∈ e.settled, ∀ p ∈ s.threads, p.unlisted ≠ some r

instance (s : Distilling) (e : Event) : Decidable (s.Orderly e) :=
  inferInstanceAs (Decidable (_ ∧ _ ∧ _))

structure Listed (s : Distilling) : Prop where
  owners : s.Owners
  sound : PendingSound s.threads s.requests s.pending s.touchedDeleted

lemma sound_of_sameRequests (hs : s.SameRequests s')
    (h : PendingSound s.threads s.requests s.pending s.touchedDeleted) :
    PendingSound s'.threads s'.requests s'.pending s'.touchedDeleted := by
  rw [hs.threads, hs.requests, hs.pending, hs.touchedDeleted]
  exact h

lemma Listed.stopRequest {r : ℕ} {R : DistillerRequest} (h : s.Listed)
    (hR : s.requests[r]? = some R)
    (hn : ∀ (t : ℕ) (k : Kind) (d : ℕ), s.threads[t]? ≠ some (.created k d r))
    (hst : s.stopRequest r R = some s') :
    PendingSound s'.threads s'.requests s'.pending s'.touchedDeleted := by
  rcases stopRequest_inv hst with ⟨-, rfl⟩ | ⟨-, D, hD, rfl⟩
  · exact h.sound
  · have hs := h.sound.stop hR (pending_getElem? hD) hn
    rw [pending_setDistiller]
    exact hs

/-- **One step keeps the lists.** -/
theorem Listed.step (h : s.Listed) (hsp : Guarded Orderly step s e s') : s'.Listed := by
  obtain ⟨⟨hu, hd, hse⟩, hsp⟩ := hsp
  refine ⟨h.owners.step hsp, ?_⟩
  cases change_of_step hsp with
  | @move _ t p p' _ hp _ _ hr hh hs =>
    apply sound_of_sameRequests hs
    refine h.sound.setThread p' ?_ ?_ hh t
    · rintro k d r rfl
      cases hr
    · rintro r rfl
      cases hr
  | @create t d k o _ more hp hmo hs =>
    exact sound_of_sameRequests hs (h.sound.create hmo t d)
  | @add t d r c k D _ hp hD hs =>
    apply sound_of_sameRequests hs
    have ha := h.sound.add (c := c) hp (pending_getElem? hD) fun t' k' d' hc =>
      h.owners.unique hc hp rfl rfl
    show PendingSound (s.threads.set t _) s.requests (s.setDistiller d _).pending s.touchedDeleted
    rw [pending_setDistiller]
    exact ha
  | @wait t d r c hp =>
    exact h.sound.setThread (.waiting d r c) (by rintro _ _ _ ⟨⟩) (by rintro _ ⟨⟩) rfl t
  | @returned t d r c i R _ hp hR hs =>
    apply sound_of_sameRequests hs
    have hm := h.sound.setThread .idle (by rintro _ _ _ ⟨⟩) (by rintro _ ⟨⟩) rfl t
    exact hm.setRequest_same { R with outstanding := true } hR rfl rfl rfl
  | @discard _ t r p p' R _ hp hr hg hw hr' hh' hR hs =>
    apply sound_of_sameRequests hs
    have hm : PendingSound (s.threads.set t p') s.requests s.pending s.touchedDeleted := by
      refine h.sound.setThread p' ?_ ?_ hh' t
      · rintro k d r rfl
        cases hr'
      · rintro r rfl
        cases hr'
    have ho : Unlisted s.pending r := by
      rcases hw with hsn | hst | rfl
      · intro d l hl hmem
        rw [pending, getElem?_map, map_eq_some_iff] at hl
        obtain ⟨D, hD, rfl⟩ := hl
        exact hu r hsn D (mem_of_getElem? hD) hmem
      · exact h.sound.unlisted_of_stopWaiting hR hst
      · obtain ⟨S, hS, hst⟩ := h.sound.destroyed hp
        exact h.sound.unlisted_of_stopWaiting hS hst
    refine hm.setRequest { R with deleted := true } hR rfl (.inr ⟨ho, fun t' k d hc => ?_⟩)
      (fun t' q hq hh => ?_) id
    · rcases getElem?_set_inv hc with ⟨-, rfl⟩ | ⟨hne, hc⟩
      · cases hr'
      · exact hne (h.owners.unique hp hc hr rfl)
    · rcases getElem?_set_inv hq with ⟨-, rfl⟩ | ⟨-, hq⟩
      · rw [hh'] at hh
        cases hh
      · exact absurd hh (hd r hg q (mem_of_getElem? hq))
  | @settle r R _ hR _ hst =>
    refine h.stopRequest hR (fun t k d hc => ?_) hst
    exact hse r rfl _ (mem_of_getElem? hc) rfl
  | @destroy t r R R1 s1 _ hp hR hout hst hR1 hs =>
    apply sound_of_sameRequests hs
    have hso := h.stopRequest hR (fun t' k d hc => ?_) hst
    · obtain rfl := requests_stopRequest hR hst hR1
      have hset := hso.setRequest_same
        { R with stopWaiting := true, outstanding := false } hR1 rfl rfl rfl
      refine hset.setThread (.destroyed r) (by rintro _ _ _ ⟨⟩) (fun x hx => ?_) rfl t
      obtain rfl := Thread.destroyed.inj hx
      exact ⟨_, getElem?_set_self (lt_of_getElem? hR1), rfl⟩
    · obtain ⟨S, hS, hk, -⟩ := h.owners.known hc rfl
      cases hR.symm.trans hS
      rw [hout] at hk
      cases hk
  | @take t d r w rest D hp hD hli =>
    have hl := pending_getElem? hD
    rw [hli] at hl
    have hta := h.sound.take (w := w) hl t
    show PendingSound (s.threads.set t _) s.requests (s.setDistiller d _).pending s.touchedDeleted
    rw [pending_setDistiller]
    exact hta
  | @notify t d r w s1 hp ht =>
    obtain ⟨⟨R, hR, hth⟩, ho, hn⟩ := h.sound.held hp rfl
    simp only [evDistillerConnectionBroken, hR, bind_eq_bind, bind_some] at ht
    rw [if_neg (Bool.eq_false_iff.mp hth)] at ht
    cases ht
    have ht := h.sound.setRequest { R with stopWaiting := true } hR rfl
      (.inr ⟨ho, hn⟩) (fun _ _ _ _ => hth) fun _ => rfl
    exact ht.setThread (.removing w d none) (by rintro _ _ _ ⟨⟩) (by rintro _ ⟨⟩) rfl t
  | discover =>
    have hnw := h.sound.discover
    have hpe : s.discover.pending = s.pending ++ [[]] := by
      rw [pending, Distilling.discover, map_append]
      rfl
    rw [hpe]
    exact hnw

lemma listed_initial (clients : ℕ) : (initial clients).Listed := by
  have hi {t : ℕ} {p : Thread} (hp : (initial clients).threads[t]? = some p) : p = .idle :=
    eq_of_mem_replicate (mem_of_getElem? hp)
  refine ⟨owners_initial clients, nofun, nofun, fun hq => ?_, fun hq => ?_, fun hq hr => ?_, rfl⟩
  · exact nomatch hi hq
  · exact nomatch hi hq
  · obtain rfl := hi hq
    exact nomatch hr

/-- **Pending requests are there and wait**, and `RemoveAllRequests_` has touched no deleted one: in
every state of every orderly run of any number of clients. -/
theorem pending_of_run {clients : ℕ} {es : List Event}
    (hrun : Run (Guarded Orderly step) (initial clients) es s) :
    (∀ D ∈ s.distillers, ∀ r ∈ D.pendingRequests, ∃ R : DistillerRequest,
      s.requests[r]? = some R ∧ R.deleted = false ∧ R.stopWaiting = false) ∧
      s.touchedDeleted = false := by
  have hl : s.Listed := hrun.invariant (fun _ _ _ h hs => h.step hs) (listed_initial clients)
  refine ⟨fun D hD r hr => ?_, hl.sound.untouched⟩
  obtain ⟨d, hd⟩ := getElem?_of_mem hD
  obtain ⟨R, hR, -, hw⟩ := hl.sound.waits (pending_getElem? hd) hr
  exact ⟨R, hR, hw⟩

/-- A client calls `Distill`; its request is sent, and is pending. -/
theorem pending_of_run_sent :
    ∃ s, Run (Guarded Orderly step) (initial 1) [.discover, .enter 0 false, .find 0 (some 0),
        .attempt 0 .ok, .add 0, .send 0 .ok] s ∧
      s.pending = [[0]] ∧
      (∀ D ∈ s.distillers, ∀ r ∈ D.pendingRequests, ∃ R : DistillerRequest,
        s.requests[r]? = some R ∧ R.deleted = false ∧ R.stopWaiting = false) ∧
      s.touchedDeleted = false := by
  exact (exists_guarded_of_decide (by decide +kernel)).imp fun s h =>
    ⟨h.1, h.2, pending_of_run h.1⟩

/-- The request of a client cannot be sent: it is deleted, but is on its distiller's list still, and
is touched when the client takes the distiller out of the cache. -/
theorem unsentRequest_touched :
    ∃ s₁ s₂, Run step (initial 1)
      [.discover, .enter 0 false, .find 0 (some 0), .attempt 0 .ok, .add 0, .send 0 .error] s₁ ∧
      s₁.pending = [[0]] ∧ s₁.requests = [⟨0, false, true, false⟩] ∧
      Run step s₁ [.disconnect 0, .disconnect 0, .disconnect 0] s₂ ∧ s₂.touchedDeleted = true := by
  have hre : (replay (fun _ _ => True) next (initial 1) [.discover, .enter 0 false,
      .find 0 (some 0), .attempt 0 .ok, .add 0, .send 0 .error]).any (fun s =>
        s.pending = [[0]] ∧ s.requests = [⟨0, false, true, false⟩] ∧
          ((replay (fun _ _ => True) next s [.disconnect 0, .disconnect 0, .disconnect 0]).any
            fun s' => s'.touchedDeleted = true) = true) = true := by
    decide +kernel
  obtain ⟨s₁, hr1, hp, hr, hrs⟩ := exists_run_of_decide hre
  obtain ⟨s₂, hr2, ht⟩ := exists_run_of_decide hrs
  exact ⟨s₁, s₂, hr1, hp, hr, hr2, ht⟩

end Distilling

end Glomop.Cache
