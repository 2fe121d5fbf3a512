import Glomop.Cache.Manager
import Glomop.Cache.NegativeCache

/-!
# Asking the PTM for a distiller

If the PTM knows of no distiller of a type, the type goes into the negative cache until the next
flush.  `DistillerCache::getDistiller` takes every status but the two timeouts for "no distiller",
those that were never set included; and a thread that has been told `ptmNoDistiller` enters the type
after a flush that comes in between.  Nothing else goes wrong (`justified_of_run`).
-/

namespace Glomop.Cache

open Lib

/-- Where a client thread stands in `getDistiller`. -/
inductive Client
  | idle
  | asking (type : DistillerType)
  /-- In `SendAndWait`, with the request's mutex; `status` is the request's. -/
  | sending (type : DistillerType) (status : UInt32)
  /-- Waiting for the answer; `done`: the condition was signalled, or not waited for. -/
  | waiting (type : DistillerType) (status : UInt32) (done : Bool)
  /-- `AskPTMForDistiller__` has returned `gm_False` with this status. -/
  | refused (type : DistillerType) (status : UInt32)
deriving DecidableEq

/-- How `SendAndWait` gets on with sending the question. -/
inductive Sending
  | written
  /-- There is no memory.  The caller's `askStatus` is what it was when the thread came by. -/
  | outOfMemory (askStatus : UInt32)
  | broken
deriving DecidableEq

structure FrontEnd where
  manager : Manager
  negativeCache : NegativeCache
  /-- Log: the types for which a PTM has answered `ptmNoDistiller` since the last flush. -/
  answered : List DistillerType
  clients : List Client

inductive FrontEnd.Event
  /-- A client calls `getDistiller`; `found`: there is one in the cache. -/
  | look (t : ℕ) (type : DistillerType) (found : Bool)
  /-- It goes on to `AskPTMForDistiller__`, with a new request whose status is `garbage`. -/
  | ask (t : ℕ) (garbage : UInt32)
  | send (t : ℕ) (outcome : Sending)
  /-- A reply comes in, the answer to a question about a type.  It reaches the request of a client,
  or none; `parsed`: the status was read from the packet. -/
  | reply (about : DistillerType) (client : Option ℕ) (parsed : Bool) (status : UInt32)
  | timeout (t : ℕ)
  /-- `SendAndWait` returns, and the status is taken from the request. -/
  | proceed (t : ℕ)
  /-- `getDistiller` looks at the status. -/
  | finish (t : ℕ)
  /-- The PTM sends a `pktFlushNCache`. -/
  | flush
  | manager (e : Manager.Event)

variable {answered : List DistillerType} {c : Client} {status : UInt32} {t : ℕ}
  {type : DistillerType}

namespace FrontEnd

open AskForDistillerStatus (ptmOk ptmNoDistiller ptmDistillerLaunchTimeout ptmAskForDistillerTimeout
  ptmNoPTM)

variable (s : FrontEnd)

def setClient (t : ℕ) (c : Client) : FrontEnd := { s with clients := s.clients.set t c }

/-- `cache.cc` `DistillerCache::getDistiller`, up to the question. -/
def look (t : ℕ) (type : DistillerType) (found : Bool) : Option FrontEnd :=
  if found then some (s.setClient t .idle)
  else
    (s.negativeCache.isThere type).map fun (there, negativeCache) =>
      { s with negativeCache := negativeCache }.setClient t (if there then .idle else .asking type)

/-- `cacheman.cc` `CacheManager::AskPTMForDistiller__`. -/
def ask (t : ℕ) (type : DistillerType) (garbage : UInt32) : FrontEnd :=
  if s.manager.ptmConnection then s.setClient t (.sending type garbage)
  else s.setClient t (.refused type ptmNoPTM.toWord)

/-- A broken connection is closed, and `SendAndWait` returns `gm_True` as if there were an answer.
`cacheman.cc` `CacheManager::AskForDistiller::SendAndWait`. -/
def send (t : ℕ) (type : DistillerType) (status : UInt32) : Sending → FrontEnd
  | .written => s.setClient t (.waiting type status false)
  | .outOfMemory askStatus => s.setClient t (.refused type askStatus)
  | .broken =>
    { s with manager := s.manager.closePTMConnection }.setClient t (.waiting type status true)

/-- Set the status of a client's request and signal its condition.  While the client is sending it
has the request's mutex.
`cacheman.cc` `CacheManager::AskForDistiller::EvReplyReceived` and `EvTimer`. -/
def signal (t : ℕ) (status : UInt32) : Option FrontEnd :=
  match s.clients[t]? with
  | some (.waiting type _ _) => some (s.setClient t (.waiting type status true))
  | _ => none

def logAnswer (about : DistillerType) (parsed : Bool) (status : UInt32) : FrontEnd :=
  if parsed = true ∧ status = ptmNoDistiller.toWord then
    { s with answered := about :: s.answered }
  else s

/-- `cachenet.cc` `AskForDistillerReplyHandler::Handle`. -/
def reply (about : DistillerType) (client : Option ℕ) (parsed : Bool) (status : UInt32) :
    Option FrontEnd :=
  match client with
  | none => some (s.logAnswer about parsed status)
  | some t => (s.logAnswer about parsed status).signal t status

/-- `cacheman.cc` `CacheManager::AskPTMForDistiller__`, its end. -/
def proceed (t : ℕ) (type : DistillerType) (status : UInt32) : FrontEnd :=
  s.setClient t (if status = ptmOk.toWord then .idle else .refused type status)

/-- `cache.cc` `DistillerCache::getDistiller`, the `switch`. -/
def finish (t : ℕ) (type : DistillerType) (status : UInt32) : Option FrontEnd :=
  if status = ptmDistillerLaunchTimeout.toWord ∨ status = ptmAskForDistillerTimeout.toWord then
    some (s.setClient t .idle)
  else
    (s.negativeCache.add type).map fun (_, negativeCache) =>
      { s with negativeCache := negativeCache }.setClient t .idle

def flushNCache : Option FrontEnd :=
  s.negativeCache.flush.map fun negativeCache =>
    { s with negativeCache := negativeCache, answered := [] }

/-- A beacon flushes the negative cache if there is no connection yet, unless memory runs out.
`cacheman.cc` `CacheManager::EvPTMLocationReceived__`. -/
def flushes (m : Manager) : Manager.Event → Bool
  | .beacon connect => !m.ptmConnection && decide (connect ≠ some .errOutOfMemory)
  | _ => false

/-- Carry out an event; `none` if it cannot happen. -/
def next (s : FrontEnd) : Event → Option FrontEnd
  | .look t type found =>
    match s.clients[t]? with
    | some .idle => s.look t type found
    | _ => none
  | .ask t garbage =>
    match s.clients[t]? with
    | some (.asking type) => some (s.ask t type garbage)
    | _ => none
  | .send t outcome =>
    match s.clients[t]? with
    | some (.sending type status) => some (s.send t type status outcome)
    | _ => none
  | .reply about client parsed status => s.reply about client parsed status
  | .timeout t => s.signal t ptmAskForDistillerTimeout.toWord
  | .proceed t =>
    match s.clients[t]? with
    | some (.waiting type status true) => some (s.proceed t type status)
    | _ => none
  | .finish t =>
    match s.clients[t]? with
    | some (.refused type status) => s.finish t type status
    | _ => none
  | .flush => s.flushNCache
  | .manager e =>
    (s.manager.next e).bind fun manager =>
      let s' := { s with manager := manager }
      if flushes s.manager e then s'.flushNCache else some s'

def step (s : FrontEnd) (e : Event) (s' : FrontEnd) : Prop := s.next e = some s'

def initial (manager : Manager) (clients : ℕ) : FrontEnd :=
  ⟨manager, .new, [], List.replicate clients .idle⟩

/-! ## Which types are in the negative cache -/

/-- **The negative cache is sound**: a PTM has answered for every type in it. -/
def Justified (s : FrontEnd) : Prop := ∀ type ∈ s.negativeCache.types, type ∈ s.answered

/-- No client has been told `ptmNoDistiller` and has yet to enter the type. -/
def Settled (s : FrontEnd) : Prop :=
  ∀ c ∈ s.clients, ∀ type, c ≠ .waiting type ptmNoDistiller.toWord true ∧
    c ≠ .refused type ptmNoDistiller.toWord

/-- The condition under which the negative cache is sound: questions are asked over a connection and
can be sent, an answer is one of the answers of a PTM and reaches the client that has asked for it,
and the cache is flushed only when no answer is under way to it. -/
def Genuine (s : FrontEnd) : Event → Prop
  | .ask _ _ => s.manager.ptmConnection = true
  | .send _ outcome => outcome = .written
  | .reply about client parsed status =>
    ∀ t ∈ client, ∀ type old done, s.clients[t]? = some (.waiting type old done) →
      parsed = true ∧ type = about ∧
        (status = ptmOk.toWord ∨ status = ptmNoDistiller.toWord ∨
          status = ptmDistillerLaunchTimeout.toWord ∨ status = ptmAskForDistillerTimeout.toWord)
  | .flush => s.Settled
  | .manager e => flushes s.manager e = true → s.Settled
  | _ => True

/-- A status with which `getDistiller` may be left without an answer of the PTM, or with one. -/
def Refusal (answered : List DistillerType) (type : DistillerType) (status : UInt32) : Prop :=
  status = ptmDistillerLaunchTimeout.toWord ∨ status = ptmAskForDistillerTimeout.toWord ∨
    (status = ptmNoDistiller.toWord ∧ type ∈ answered)

def Backed (answered : List DistillerType) : Client → Prop
  | .waiting type status true => status = ptmOk.toWord ∨ Refusal answered type status
  | .refused type status => Refusal answered type status
  | _ => True

structure Sound (s : FrontEnd) : Prop where
  consistent : s.negativeCache.Consistent
  justified : s.Justified
  backed : ∀ c ∈ s.clients, Backed s.answered c

variable {s} {s' : FrontEnd} {e : Event}

lemma Refusal.mono {answered' : List DistillerType} (hs : answered ⊆ answered')
    (h : Refusal answered type status) : Refusal answered' type status :=
  h.imp_right fun h => h.imp_right fun h => ⟨h.1, hs h.2⟩

lemma Backed.mono {answered' : List DistillerType} (hs : answered ⊆ answered')
    (h : Backed answered c) : Backed answered' c := by
  match c, h with
  | .waiting _ _ true, h => exact h.imp_right (Refusal.mono hs)
  | .refused _ _, h => exact Refusal.mono hs h
  | .waiting _ _ false, _ => trivial
  | .idle, _ => trivial
  | .asking _, _ => trivial
  | .sending _ _, _ => trivial

lemma Backed.of_settled (hs : ∀ type, c ≠ .waiting type ptmNoDistiller.toWord true ∧
      c ≠ .refused type ptmNoDistiller.toWord) (h : Backed answered c) : Backed [] c := by
  match c, h with
  | .waiting type _ true, .inl hok => exact .inl hok
  | .waiting type _ true, .inr (.inl hl) => exact .inr (.inl hl)
  | .waiting type _ true, .inr (.inr (.inl ht)) => exact .inr (.inr (.inl ht))
  | .waiting type _ true, .inr (.inr (.inr hn)) =>
    exact absurd (congrArg (Client.waiting type · true) hn.1) (hs type).1
  | .refused type _, .inl hl => exact .inl hl
  | .refused type _, .inr (.inl ht) => exact .inr (.inl ht)
  | .refused type _, .inr (.inr hn) =>
    exact absurd (congrArg (Client.refused type) hn.1) (hs type).2
  | .waiting _ _ false, _ => trivial
  | .idle, _ => trivial
  | .asking _, _ => trivial
  | .sending _ _, _ => trivial

namespace Sound

variable (h : s.Sound)
include h

lemma setClient (t : ℕ) (hc : Backed s.answered c) : (s.setClient t c).Sound where
  consistent := h.consistent
  justified := h.justified
  backed := by
    intro c' hc'
    rcases List.mem_or_eq_of_mem_set hc' with hmem | rfl
    · exact h.backed c' hmem
    · exact hc

lemma signal (hs : ∀ type old done, s.clients[t]? = some (.waiting type old done) →
      status = ptmOk.toWord ∨ Refusal s.answered type status) (hs' : s.signal t status = some s') :
    s'.Sound := by
  unfold FrontEnd.signal at hs'
  split at hs'
  next type old done hc =>
    cases hs'
    exact h.setClient t (hs type old done hc)
  next => cases hs'

lemma flushNCache (hs : s.Settled) (hs' : s.flushNCache = some s') : s'.Sound := by
  obtain ⟨negativeCache, hfl, hf⟩ := h.consistent.flush
  rw [FrontEnd.flushNCache, hfl] at hs'
  cases hs'
  refine ⟨hf.consistent, fun type hmem => ?_, fun c hc => ?_⟩
  · rcases hf.gained type hmem with ha | ⟨hne, _⟩
    · cases ha
    · exact absurd rfl hne
  · exact (h.backed c hc).of_settled (hs c hc)

lemma withManager (manager : Manager) : Sound { s with manager := manager } := { h with }

lemma look {found : Bool} (hs' : s.look t type found = some s') : s'.Sound := by
  unfold FrontEnd.look at hs'
  cases found with
  | true =>
    cases hs'
    exact h.setClient t trivial
  | false =>
    obtain ⟨there, negativeCache, ht, hf⟩ := h.consistent.isThere type
    rw [if_neg Bool.false_ne_true, ht] at hs'
    cases hs'
    have hs : Sound { s with negativeCache := negativeCache } := by
      refine ⟨hf.consistent, fun type' hmem => ?_, h.backed⟩
      rcases hf.gained type' hmem with ha | ⟨_, hold⟩
      · cases ha
      · exact h.justified type' hold
    refine hs.setClient t ?_
    cases there <;> trivial

lemma finish (hs : Refusal s.answered type status) (hs' : s.finish t type status = some s') :
    s'.Sound := by
  unfold FrontEnd.finish at hs'
  split_ifs at hs' with ht
  · cases hs'
    exact h.setClient t trivial
  · -- the only status that is left is an answer
    have ha : type ∈ s.answered := by
      rcases hs with hl | hak | hn
      · exact absurd (.inl hl) ht
      · exact absurd (.inr hak) ht
      · exact hn.2
    obtain ⟨added, negativeCache, had, hf⟩ := h.consistent.add type
    rw [had] at hs'
    cases hs'
    have hso : Sound { s with negativeCache := negativeCache } := by
      refine ⟨hf.consistent, fun type' hmem => ?_, h.backed⟩
      rcases hf.gained type' hmem with heq | ⟨_, hold⟩
      · obtain rfl := NegativeCache.Op.add.inj heq
        exact ha
      · exact h.justified type' hold
    exact hso.setClient t trivial

lemma logAnswer (about : DistillerType) (parsed : Bool) (status : UInt32) :
    (s.logAnswer about parsed status).Sound := by
  unfold FrontEnd.logAnswer
  split_ifs
  · have hs : s.answered ⊆ about :: s.answered := List.subset_cons_self _ _
    exact ⟨h.consistent, fun type hmem => hs (h.justified type hmem),
      fun c hc => (h.backed c hc).mono hs⟩
  · exact h

lemma reply {about : DistillerType} {client : Option ℕ} {parsed : Bool}
    (hg : s.Genuine (.reply about client parsed status))
    (hs' : s.reply about client parsed status = some s') : s'.Sound := by
  have hl := h.logAnswer about parsed status
  cases client with
  | none =>
    cases hs'
    exact hl
  | some t =>
    refine hl.signal (fun type old done hc => ?_) hs'
    have hcl : (s.logAnswer about parsed status).clients = s.clients := by
      unfold FrontEnd.logAnswer
      split_ifs <;> rfl
    rw [hcl] at hc
    obtain ⟨rfl, rfl, hok | hn | hla | ht⟩ := hg t rfl type old done hc
    · exact .inl hok
    · have hlo : s.logAnswer type true status = { s with answered := type :: s.answered } :=
        if_pos ⟨rfl, hn⟩
      rw [hlo]
      exact .inr (.inr (.inr ⟨hn, .head _⟩))
    · exact .inr (.inl hla)
    · exact .inr (.inr (.inl ht))

/-- **One event.** -/
theorem step (hg : s.Genuine e) (hs : s.step e s') : s'.Sound := by
  unfold FrontEnd.step FrontEnd.next at hs
  cases e with
  | look t type found =>
    dsimp only at hs
    split at hs
    next => exact h.look hs
    next => cases hs
  | ask t garbage =>
    dsimp only at hs
    split at hs
    next type hc =>
      cases hs
      have hco : s.manager.ptmConnection = true := hg
      rw [ask, if_pos hco]
      exact h.setClient t trivial
    next => cases hs
  | send t outcome =>
    dsimp only at hs
    split at hs
    next type status hc =>
      cases hs
      have hw : outcome = .written := hg
      rw [hw]
      exact h.setClient t trivial
    next => cases hs
  | reply about client parsed status => exact h.reply hg hs
  | timeout t => exact h.signal (fun _ _ _ _ => .inr (.inr (.inl rfl))) hs
  | proceed t =>
    dsimp only at hs
    split at hs
    next type status hc =>
      cases hs
      have hb : Backed s.answered (.waiting type status true) :=
        h.backed _ (List.mem_of_getElem? hc)
      rw [proceed]
      split_ifs with hok
      · exact h.setClient t trivial
      · exact h.setClient t (hb.resolve_left hok)
    next => cases hs
  | finish t =>
    dsimp only at hs
    split at hs
    next type status hc =>
      have hb : Backed s.answered (.refused type status) := h.backed _ (List.mem_of_getElem? hc)
      exact h.finish hb hs
    next => cases hs
  | flush => exact h.flushNCache hg hs
  | manager e =>
    dsimp only at hs
    obtain ⟨manager, _, hs⟩ := Option.bind_eq_some_iff.mp hs
    split_ifs at hs with hf
    · exact (h.withManager manager).flushNCache (hg hf) hs
    · cases hs
      exact h.withManager manager

end Sound

lemma sound_initial (manager : Manager) (clients : ℕ) : (initial manager clients).Sound where
  consistent := NegativeCache.consistent_new
  justified := by
    nofun
  backed := by
    intro c hc
    obtain rfl := List.eq_of_mem_replicate hc
    trivial

/-- **Every genuine run**: a type is in the negative cache only if a PTM has answered that it has no
distiller for it since the last flush. -/
theorem justified_of_run {manager : Manager} {clients : ℕ} {es : List Event}
    (hrun : Run (Guarded Genuine step) (initial manager clients) es s') : s'.Justified := by
  have hso : s'.Sound :=
    hrun.invariant (fun _ _ _ h hs => h.step hs.1 hs.2) (sound_initial manager clients)
  exact hso.justified

def someType : DistillerType := ⟨[97], noNul_a, fits_a⟩

/-- A cache manager that is connected to a PTM, or is not. -/
def someManager (ptmConnection : Bool) : Manager :=
  ⟨ptmConnection, none, [], 0, true, false, 0, true⟩

/-- A client that asks for a type and is told that there is no distiller for it. -/
theorem justified_of_run_answered :
    ∃ s, Run (Guarded Genuine step) (initial (someManager true) 1)
        [.look 0 someType false, .ask 0 0, .send 0 .written,
          .reply someType (some 0) true ptmNoDistiller.toWord, .proceed 0, .finish 0] s ∧
      s.negativeCache.types = [someType] ∧ s.Justified := by
  have hrun : Run (Guarded Genuine step) (initial (someManager true) 1)
      [.look 0 someType false, .ask 0 0, .send 0 .written,
        .reply someType (some 0) true ptmNoDistiller.toWord, .proceed 0, .finish 0] _ :=
    .cons ⟨trivial, rfl⟩ (.cons ⟨rfl, rfl⟩ (.cons ⟨rfl, rfl⟩ (.cons ⟨by
      intro t ht type old done hc
      cases ht
      obtain ⟨rfl, _, _⟩ := Client.waiting.inj (Option.some.inj hc)
      exact ⟨rfl, rfl, .inr (.inl rfl)⟩, rfl⟩
      (.cons ⟨trivial, rfl⟩ (.cons ⟨trivial, rfl⟩ (.nil _))))))
  exact ⟨_, hrun, by decide +kernel, justified_of_run hrun⟩

/-- **Three ways for a type to be in the negative cache without an answer since the last flush**:
there is no connection to a PTM; the connection turns out to be broken; the cache is flushed between
the answer and its entry. -/
theorem unjustified :
    (∃ s, Run step (initial (someManager false) 1) [.look 0 someType false, .ask 0 0, .finish 0] s ∧
      s.negativeCache.types = [someType] ∧ s.answered = []) ∧
    (∃ s, Run step (initial (someManager true) 1)
        [.look 0 someType false, .ask 0 7, .send 0 .broken, .proceed 0, .finish 0] s ∧
      s.negativeCache.types = [someType] ∧ s.answered = []) ∧
    ∃ s, Run step (initial (someManager true) 1)
        [.look 0 someType false, .ask 0 0, .send 0 .written,
          .reply someType (some 0) true ptmNoDistiller.toWord, .proceed 0, .flush, .finish 0] s ∧
      s.negativeCache.types = [someType] ∧ s.answered = [] :=
  ⟨exists_run_of_decide (by decide +kernel), exists_run_of_decide (by decide +kernel),
    exists_run_of_decide (by decide +kernel)⟩

end FrontEnd

end Glomop.Cache
