import Glomop.Database.Index
import Glomop.Share.Defines

/-!
# Requests and their replies

The event system gives a `RequestReply` object a number and enters it in a unique index; a reply
carries the number.  The numbers start again after `2 ^ 32` objects; one that is still in use is
refused, and `2 ^ 31` has no bucket in the index.  Source: `reqrep.h`, `reqrep.cc`.
-/

namespace Glomop.Share

open Lib Option UInt32 Index

/-- An object that waits for a reply: which one it is, and its number. -/
structure RequestReply where
  object : ℕ
  id : UInt32
deriving DecidableEq

structure RequestReplyEventSystem where
  transactionCount : UInt32
  requestReplyIndex : Index RequestReply UInt32

variable {r : RequestReply}

namespace RequestReplyEventSystem

/-- The index has the default number of buckets.
`RequestReplyEventSystem::RequestReplyEventSystem`. -/
def new : RequestReplyEventSystem where
  transactionCount := 0
  requestReplyIndex := .new wordKey RequestReply.id false 13 Index.defaultSize_pos
    Index.defaultSize_lt

/-- Give an object its number and enter it in the index; `gm_False` if the number is in use. -/
def addRequestReply (s : RequestReplyEventSystem) (object : ℕ) :
    Option (Bool × RequestReplyEventSystem) := do
  let transactionCount :=
    if s.transactionCount = NoRequestReply then s.transactionCount + 1 else s.transactionCount
  let (returnValue, index) ← s.requestReplyIndex.add ⟨object, transactionCount⟩
  return (returnValue, ⟨transactionCount + 1, index⟩)

def removeRequestReply (s : RequestReplyEventSystem) (r : RequestReply) :
    Option RequestReplyEventSystem := do
  let index ← s.requestReplyIndex.remove r
  return { s with requestReplyIndex := index }

/-- The object that a reply with this number is sent to, if there is one. -/
def sendReplyReceivedEvent (s : RequestReplyEventSystem) (requestReplyID : UInt32) :
    Option (Option RequestReply) :=
  if requestReplyID = NoRequestReply then some none
  else s.requestReplyIndex.findOne requestReplyID

inductive Op
  | create (object : ℕ)
  | destroy (r : RequestReply)

def next (s : RequestReplyEventSystem) : Op → Option RequestReplyEventSystem
  | .create object => (s.addRequestReply object).map Prod.snd
  | .destroy r => s.removeRequestReply r

def step (s : RequestReplyEventSystem) (op : Op) (s' : RequestReplyEventSystem) : Prop :=
  s.next op = some s'

def Registered (s : RequestReplyEventSystem) (r : RequestReply) : Prop :=
  r ∈ s.requestReplyIndex.entries

structure Numbered (s : RequestReplyEventSystem) : Prop where
  sound : s.requestReplyIndex.Sound
  key_eq : s.requestReplyIndex.key = wordKey
  getIndexKey_eq : s.requestReplyIndex.getIndexKey = RequestReply.id
  unique : s.requestReplyIndex.duplicatesAllowed = false
  id_ne : ∀ r, s.Registered r → r.id ≠ NoRequestReply

lemma numbered_new : new.Numbered where
  sound := sound_of_empty Buckets.entries_empty
  key_eq := rfl
  getIndexKey_eq := rfl
  unique := rfl
  id_ne r hr := by
    have hmem : r ∈ ([] : List RequestReply) := Buckets.entries_empty (n := 13) ▸ hr
    exact absurd hmem List.not_mem_nil

variable {s s' : RequestReplyEventSystem}

lemma Numbered.addRequestReply (h : s.Numbered) {object : ℕ} {returnValue : Bool}
    (had : s.addRequestReply object = some (returnValue, s')) : s'.Numbered := by
  obtain ⟨⟨added, index⟩, hin, he⟩ := bind_eq_some_iff.mp had
  cases he
  obtain ⟨⟨i, hi⟩, hsh⟩ := add_inv hin
  have hid : (if s.transactionCount = NoRequestReply then s.transactionCount + 1
      else s.transactionCount) ≠ NoRequestReply := by
    split_ifs with hz
    · rw [hz]
      decide
    · exact hz
  have hs : index.Sound ∧ ∀ r ∈ index.entries, r.id ≠ NoRequestReply := by
    rcases h.sound.add hi with hre | ⟨index', ha, hs, hp, _⟩
    · cases hin.symm.trans hre
      exact ⟨h.sound, h.id_ne⟩
    · cases hin.symm.trans ha
      refine ⟨hs, fun r hr => ?_⟩
      rcases List.mem_cons.mp (hp.mem_iff.mp hr) with rfl | hr
      · exact hid
      · exact h.id_ne r hr
  exact ⟨hs.1, hsh.key_eq.trans h.key_eq, hsh.getIndexKey_eq.trans h.getIndexKey_eq,
    hsh.duplicatesAllowed_eq.trans h.unique, hs.2⟩

lemma Numbered.removeRequestReply (h : s.Numbered) (hre : s.removeRequestReply r = some s') :
    s'.Numbered := by
  obtain ⟨index, hin, he⟩ := bind_eq_some_iff.mp hre
  cases he
  obtain ⟨⟨i, hi⟩, hs⟩ := remove_inv hin
  obtain ⟨index', hr', hso, hp⟩ := h.sound.remove hi
  cases hin.symm.trans hr'
  exact ⟨hso, hs.key_eq.trans h.key_eq, hs.getIndexKey_eq.trans h.getIndexKey_eq,
    hs.duplicatesAllowed_eq.trans h.unique,
    fun r hr => h.id_ne r (List.mem_of_mem_erase (hp.mem_iff.mp hr))⟩

lemma Numbered.step (h : s.Numbered) {op : Op} (hs : s.step op s') : s'.Numbered := by
  cases op with
  | create object =>
    obtain ⟨⟨returnValue, _⟩, ha, rfl⟩ := map_eq_some_iff.mp hs
    exact h.addRequestReply ha
  | destroy r => exact h.removeRequestReply hs

/-- **A reply reaches the object with its number.** -/
theorem Numbered.delivered (h : s.Numbered) (hr : s.Registered r) :
    s.sendReplyReceivedEvent r.id = some (some r) := by
  obtain ⟨i, hi⟩ := h.sound.exists_getBucket hr
  have hkey : s.requestReplyIndex.getIndexKey r = r.id := by rw [h.getIndexKey_eq]
  obtain ⟨found, hf, hso, hn⟩ := h.sound.findOne hi
  have hs : s.requestReplyIndex.key.equal (s.requestReplyIndex.getIndexKey r)
      (s.requestReplyIndex.getIndexKey r) = true := s.requestReplyIndex.key.equivalence.refl _
  unfold sendReplyReceivedEvent
  rw [if_neg (h.id_ne r hr), ← hkey, hf]
  cases found with
  | none => exact absurd hs (by rw [hn rfl r hr]; simp)
  | some r' =>
    obtain ⟨hr', he⟩ := hso r' rfl
    rw [h.sound.eq_of_equal h.unique hr' hr he]

/-! ## Every number -/

def nextID (s : RequestReplyEventSystem) : UInt32 :=
  if s.transactionCount = NoRequestReply then s.transactionCount + 1 else s.transactionCount

/-- Nothing is registered, and the counter has some value. -/
def startedAt (count : UInt32) : RequestReplyEventSystem := { new with transactionCount := count }

inductive Call
  | add (object : ℕ)
  | remove (r : RequestReply)
  | send (requestReplyID : UInt32)

def Call.number (s : RequestReplyEventSystem) : Call → UInt32
  | .add _ => s.nextID
  | .remove r => r.id
  | .send requestReplyID => requestReplyID

def Serves (s : RequestReplyEventSystem) : Call → Prop
  | .add object => ∃ returnValue s', s.addRequestReply object = some (returnValue, s') ∧
      if returnValue then
        s.nextID ≠ NoRequestReply ∧ (∀ r, s.Registered r → r.id ≠ s.nextID) ∧
          ∀ r, s'.Registered r ↔ r = ⟨object, s.nextID⟩ ∨ s.Registered r
      else (∃ r, s.Registered r ∧ r.id = s.nextID) ∧ ∀ r, s'.Registered r ↔ s.Registered r
  | .remove r => ∃ s', s.removeRequestReply r = some s' ∧
      ∀ r', s'.Registered r' ↔ s.Registered r' ∧ r' ≠ r
  | .send requestReplyID => ∃ found, s.sendReplyReceivedEvent requestReplyID = some found ∧
      ∀ r, found = some r ↔ s.Registered r ∧ r.id = requestReplyID

/-- **The call is right**: the bucket it looks at is one of the index, and it does what it
should. -/
structure Routed (s : RequestReplyEventSystem) (call : Call) : Prop where
  bucket : ∃ i, s.requestReplyIndex.getBucket (call.number s) = some i
  serves : s.Serves call

lemma addRequestReply_eq (s : RequestReplyEventSystem) (object : ℕ) :
    s.addRequestReply object = (s.requestReplyIndex.add ⟨object, s.nextID⟩).map fun r =>
      (r.1, ⟨s.nextID + 1, r.2⟩) := by
  rw [map_eq_bind]
  rfl

lemma nextID_ne : s.nextID ≠ NoRequestReply := by
  unfold nextID
  split_ifs with hz
  · rw [hz]
    decide
  · exact hz

namespace Numbered

variable {id : UInt32}

section

variable (h : s.Numbered)

include h

lemma exists_getBucket (hid : id ≠ badHash) : ∃ i, s.requestReplyIndex.getBucket id = some i := by
  refine s.requestReplyIndex.exists_getBucket ?_
  rw [h.key_eq]
  exact hid

lemma equal_iff :
    s.requestReplyIndex.key.equal (s.requestReplyIndex.getIndexKey r) id = true ↔ r.id = id := by
  rw [h.key_eq, h.getIndexKey_eq]
  exact beq_iff_eq

lemma eq_of_id_eq {r' : RequestReply} (hr : s.Registered r)
    (hr' : s.Registered r') (hid : r.id = r'.id) : r = r' := by
  refine h.sound.eq_of_equal h.unique hr hr' (h.equal_iff.mpr ?_)
  rw [h.getIndexKey_eq, hid]

/-- **What `AddRequestReply` does**, for a number that has a bucket. -/
theorem add_cases (hid : s.nextID ≠ badHash) (object : ℕ) :
    (s.addRequestReply object = some (false, { s with transactionCount := s.nextID + 1 }) ∧
      ∃ r, s.Registered r ∧ r.id = s.nextID) ∨
    ∃ s', s.addRequestReply object = some (true, s') ∧ (∀ r, s.Registered r → r.id ≠ s.nextID) ∧
      (∀ r, s'.Registered r ↔ r = ⟨object, s.nextID⟩ ∨ s.Registered r) ∧
      s'.removeRequestReply ⟨object, s.nextID⟩ =
        some { s with transactionCount := s.nextID + 1 } := by
  have had : ∀ {returnValue index},
      s.requestReplyIndex.add ⟨object, s.nextID⟩ = some (returnValue, index) →
      s.addRequestReply object = some (returnValue, ⟨s.nextID + 1, index⟩) := by
    intro returnValue index hin
    rw [addRequestReply_eq, hin, map_some]
  have hkey : s.requestReplyIndex.getIndexKey ⟨object, s.nextID⟩ = s.nextID := by
    rw [h.getIndexKey_eq]
  obtain ⟨i, hi⟩ := h.exists_getBucket hid
  rcases h.sound.add (hkey.symm ▸ hi) with hre | ⟨index, ha, hs, hp, hrm⟩
  · obtain ⟨r, hr, he⟩ := h.sound.exists_of_refused hre
    rw [hkey] at he
    exact .inl ⟨had hre, r, hr, h.equal_iff.mp he⟩
  · have hs' : Numbered ⟨s.nextID + 1, index⟩ := h.addRequestReply (had ha)
    have hmem : ∀ r, r ∈ index.entries ↔ r = ⟨object, s.nextID⟩ ∨ s.Registered r :=
      fun r => hp.mem_iff.trans List.mem_cons
    refine .inr ⟨_, had ha, fun r hr hsa => ?_, hmem, ?_⟩
    · -- an object with the number would be the one that was added, which is then there twice
      obtain rfl : r = ⟨object, s.nextID⟩ :=
        hs'.eq_of_id_eq ((hmem r).mpr (.inr hr)) ((hmem _).mpr (.inl rfl)) hsa
      have hn := hp.nodup_iff.mp (hs.nodup hs'.unique)
      exact (List.nodup_cons.mp hn).1 hr
    · simp only [RequestReplyEventSystem.removeRequestReply, hrm, bind_eq_bind, bind_some]
      rfl

lemma serves_add (hid : s.nextID ≠ badHash) (object : ℕ) : s.Serves (.add object) := by
  rcases h.add_cases hid object with ⟨hr, hu⟩ | ⟨s', ha, hf, hmem, -⟩
  · exact ⟨false, _, hr, hu, fun _ => Iff.rfl⟩
  · exact ⟨true, s', ha, nextID_ne, hf, hmem⟩

lemma serves_remove (hid : r.id ≠ badHash) : s.Serves (.remove r) := by
  obtain ⟨i, hi⟩ := h.exists_getBucket hid
  have hkey : s.requestReplyIndex.getIndexKey r = r.id := by rw [h.getIndexKey_eq]
  obtain ⟨index, hr, hs, hp⟩ := h.sound.remove (hkey.symm ▸ hi)
  have hn : s.requestReplyIndex.entries.Nodup := h.sound.nodup h.unique
  refine ⟨{ s with requestReplyIndex := index }, ?_, fun r' => ?_⟩
  · simp only [RequestReplyEventSystem.removeRequestReply, hr, bind_eq_bind, bind_some]
    rfl
  · exact hp.mem_iff.trans (hn.mem_erase_iff.trans and_comm)

lemma serves_send (hid : id ≠ badHash) : s.Serves (.send id) := by
  by_cases hz : id = NoRequestReply
  · refine ⟨none, if_pos hz, fun r => ⟨nofun, ?_⟩⟩
    rintro ⟨hr, hr'⟩
    exact absurd (hr'.trans hz) (h.id_ne r hr)
  · obtain ⟨i, hi⟩ := h.exists_getBucket hid
    obtain ⟨found, hf, hs, hn⟩ := h.sound.findOne hi
    refine ⟨found, (if_neg hz).trans hf, fun r => ⟨fun hr => ?_, ?_⟩⟩
    · obtain ⟨hmem, he⟩ := hs r hr
      exact ⟨hmem, h.equal_iff.mp he⟩
    · rintro ⟨hr, rfl⟩
      exact some.inj (((if_neg hz).trans hf).symm.trans (h.delivered hr))

end

end Numbered

lemma numberOfBuckets_step {op : Op} (hs : s.step op s') :
    s'.requestReplyIndex.numberOfBuckets = s.requestReplyIndex.numberOfBuckets := by
  cases op with
  | create object =>
    obtain ⟨⟨returnValue, _⟩, ha, rfl⟩ := map_eq_some_iff.mp hs
    rw [addRequestReply_eq, map_eq_some_iff] at ha
    obtain ⟨⟨added, index⟩, ha, he⟩ := ha
    cases he
    exact add_numberOfBuckets ha
  | destroy r =>
    simp only [step, next, removeRequestReply,
      bind_eq_bind, bind_eq_some_iff] at hs
    obtain ⟨index, hr, he⟩ := hs
    cases he
    exact remove_numberOfBuckets hr

lemma getBucket_badHash (h : s.Numbered) (hs : s.requestReplyIndex.numberOfBuckets = 13) :
    s.requestReplyIndex.getBucket badHash = none := by
  unfold getBucket
  rw [h.key_eq]
  have hn : ∀ n, n = 13 → bucketAt n (wordKey.hash badHash) = none := by
    rintro n rfl
    decide +kernel
  exact hn _ hs

/-- **Routing.**  Whatever objects were created and destroyed, starting from any value of the
counter, a call does what it should and stays inside the index exactly if its number is not
`2 ^ 31`. -/
theorem routed_iff (count : UInt32) {ops : List Op} (h : Run step (startedAt count) ops s)
    (call : Call) : s.Routed call ↔ call.number s ≠ badHash := by
  have hn : s.Numbered := h.invariant (fun _ _ _ hs hst => hs.step hst) { numbered_new with }
  have hsi : s.requestReplyIndex.numberOfBuckets = 13 :=
    h.invariant (I := fun s => s.requestReplyIndex.numberOfBuckets = 13)
      (fun _ _ _ hs hst => (numberOfBuckets_step hst).trans hs) rfl
  constructor
  · rintro ⟨⟨i, hi⟩, -⟩ hb
    rw [hb, getBucket_badHash hn hsi] at hi
    cases hi
  · intro hne
    refine ⟨hn.exists_getBucket hne, ?_⟩
    cases call with
    | add object => exact hn.serves_add hne object
    | remove r => exact hn.serves_remove hne
    | send requestReplyID => exact hn.serves_send hne

/-- The first object is registered under the number 1, and the next gets the number 2. -/
theorem routed_iff_second :
    ∃ s, Run step (startedAt 0) [.create 7] s ∧ s.nextID = 2 ∧ s.Routed (.add 8) := by
  have hn : (((startedAt 0).next (.create 7)).any fun s => s.nextID = 2) = true := by
    decide +kernel
  obtain ⟨s, hs, hid⟩ := (any_eq_true _ _).mp hn
  have hrun : Run step (startedAt 0) [.create 7] s := .cons hs (.nil _)
  have hid : s.nextID = 2 := of_decide_eq_true hid
  refine ⟨s, hrun, hid, (routed_iff 0 hrun (.add 8)).mpr ?_⟩
  rw [Call.number, hid]
  decide

/-! ## The number without a bucket -/

lemma Numbered.create_destroy (h : s.Numbered) (hid : s.nextID ≠ badHash)
    (hf : ∀ r, ¬ s.Registered r) :
    Run RequestReplyEventSystem.step s [.create 0, .destroy ⟨0, s.nextID⟩]
      { s with transactionCount := s.nextID + 1 } := by
  rcases h.add_cases hid 0 with ⟨-, r, hr, -⟩ | ⟨s', ha, -, -, hre⟩
  · exact absurd hr (hf r)
  · have hc : s.next (.create 0) = some s' := by rw [next, ha, map_some]
    exact .cons hc (.cons hre (.nil _))

lemma numbered_startedAt (count : UInt32) : (startedAt count).Numbered := { numbered_new with }

lemma not_registered_startedAt (count : UInt32) (r : RequestReply) :
    ¬ (startedAt count).Registered r := by
  intro hr
  have he : (startedAt count).requestReplyIndex.entries = [] := Buckets.entries_empty
  rw [Registered, he] at hr
  exact absurd hr List.not_mem_nil

lemma exists_run_startedAt {n : ℕ} (hl : 2 ≤ n) (hh : n ≤ 2 ^ 31) :
    ∃ ops, Run step new ops (startedAt (ofNat n)) := by
  have hp : ∀ count : UInt32, (startedAt count).nextID ≠ badHash →
      ∃ ops, Run step (startedAt count) ops (startedAt ((startedAt count).nextID + 1)) :=
    fun count hid =>
      ⟨_, (numbered_startedAt count).create_destroy hid (not_registered_startedAt count)⟩
  induction n, hl using Nat.le_induction with
  | base => exact hp 0 (by decide +kernel)
  | succ n hl ih =>
    obtain ⟨ops, hrun⟩ := ih (by omega)
    have ht : (ofNat n).toNat = n := toNat_ofNat_of_lt' (by
      unfold size
      omega)
    have hid : (startedAt (ofNat n)).nextID = ofNat n := by
      refine if_neg fun hz => ?_
      have hn := congrArg toNat hz
      rw [show (startedAt (ofNat n)).transactionCount = ofNat n from rfl, ht] at hn
      exact absurd hn (by simp [NoRequestReply]; omega)
    have hne : ofNat n ≠ badHash := by
      intro hb
      have hn := congrArg toNat hb
      rw [ht] at hn
      have : badHash.toNat = 2 ^ 31 := by decide
      omega
    obtain ⟨ops', hr'⟩ := hp (ofNat n) (by rwa [hid])
    refine ⟨ops ++ ops', hrun.append ?_⟩
    rw [hid] at hr'
    rwa [ofNat_add]

/-- After `2 ^ 31 - 1` objects, of which there never were two at a time, the next one has no bucket;
and a reply that carries the number `2 ^ 31` has none at any time. -/
theorem badHash_faults :
    (∃ ops s, Run step new ops s ∧ (∀ r, ¬ s.Registered r) ∧ s.addRequestReply 0 = none) ∧
    new.sendReplyReceivedEvent badHash = none := by
  obtain ⟨ops, hrun⟩ := exists_run_startedAt (n := 2 ^ 31) (by norm_num) le_rfl
  exact ⟨⟨ops, _, hrun, not_registered_startedAt _, by decide +kernel⟩, by decide +kernel⟩

end RequestReplyEventSystem

end Glomop.Share
