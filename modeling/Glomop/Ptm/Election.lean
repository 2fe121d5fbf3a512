import Glomop.Lib.Election
import Glomop.Lib.Run
import Glomop.Ptm.Beacon

/-!
# Which PTM survives

A PTM compares the random id, the port and the IP address in another's beacon with its own, and
posts `evQuit` when it is the smaller one.  The comparison is a lexicographic order
(`compareBeacon_eq`), and the system of real packets and handlers goes through the same states as
the election of `Glomop.Lib.Election` (`quit_iff_survivors`).
-/

namespace Glomop.Ptm

open Lib Prog IStream UInt32

/-- What the handler reads off a beacon, or `none` where it returns `gm_False`.  The rest of the
packet is ignored.
`ptmnet.cc` `PTMBeaconHandler::Handle`. -/
def beaconIdentity : ReadM (Option (RemoteID × UInt32)) := do
  delimit bar
  let rid ← inputRemoteID RemoteID.empty
  skip
  binary true
  let randomID ← inputUInt32 0
  binary false
  let s ← get
  if s.isGood = false ∨ rid.port = 0 then return none else return some (rid, randomID)

variable {a b : RemoteID} {m n : UInt32}

section

/-! `ipNumber` is `ntohl(inet_addr(·))`, a function of the C library. -/

variable (ipNumber : CString MAXIP → UInt32)

def compareBeacon (myAddress : RemoteID) (myRandomID : UInt32) (otherRid : RemoteID)
    (otherRandomID : UInt32) : ℤ :=
  if myRandomID < otherRandomID then -1
  else if myRandomID > otherRandomID then 1
  else if myAddress.port < otherRid.port then -1
  else if myAddress.port > otherRid.port then 1
  else
    let myIP := ipNumber myAddress.ipAddress
    let otherIP := ipNumber otherRid.ipAddress
    if myIP < otherIP then -1
    else if myIP > otherIP then 1
    else 0

/-- `ptmnet.cc` `PTMBeaconHandler::Handle`. -/
def beaconHandle (p : Packet) (past : UInt8) : M Bool := do
  match ← runStream p past beaconIdentity with
  | none => return false
  | some (rid, randomID) =>
    let s ← get
    if compareBeacon ipNumber s.myAddress s.myRandomID rid randomID = -1 then
      set { s with quit := true }
      return true
    else return true

/-! ## The comparison is an order -/

def rank (address : RemoteID) (randomID : UInt32) : ℕ ×ₗ ℤ ×ₗ ℕ :=
  toLex (randomID.toNat, toLex (address.port.toInt, (ipNumber address.ipAddress).toNat))

lemma rank_lt_iff :
    rank ipNumber a m < rank ipNumber b n ↔
      m < n ∨ m = n ∧ (a.port < b.port ∨ a.port = b.port ∧
        ipNumber a.ipAddress < ipNumber b.ipAddress) := by
  simp only [rank, Prod.Lex.toLex_lt_toLex, lt_iff_toNat_lt, Int32.lt_iff_toInt_lt,
    UInt32.toNat_inj, Int32.toInt_inj]

/-- **The comparison is the lexicographic order** of random id, port and IP number. -/
theorem compareBeacon_eq (a b : RemoteID) (m n : UInt32) :
    compareBeacon ipNumber a m b n =
      if rank ipNumber a m < rank ipNumber b n then -1
      else if rank ipNumber b n < rank ipNumber a m then 1 else 0 := by
  simp only [rank_lt_iff, compareBeacon, gt_iff_lt, lt_iff_toNat_lt, Int32.lt_iff_toInt_lt,
    ← UInt32.toNat_inj, ← Int32.toInt_inj]
  split_ifs <;> first | rfl | omega

lemma compareBeacon_eq_neg_one_iff :
    compareBeacon ipNumber a m b n = -1 ↔ rank ipNumber a m < rank ipNumber b n := by
  rw [compareBeacon_eq]
  split_ifs with h1 h2 <;> simp [h1]

lemma compareBeacon_eq_zero_iff :
    compareBeacon ipNumber a m b n = 0 ↔ rank ipNumber a m = rank ipNumber b n := by
  rw [compareBeacon_eq]
  rcases lt_trichotomy (rank ipNumber a m) (rank ipNumber b n) with h | h | h
  · simp [h, h.ne]
  · simp [h]
  · simp [h, h.not_gt, h.ne']

lemma compareBeacon_swap (a b : RemoteID) (m n : UInt32) :
    compareBeacon ipNumber a m b n = -compareBeacon ipNumber b n a m := by
  rw [compareBeacon_eq, compareBeacon_eq]
  split_ifs with h1 h2 h2
  · exact absurd h2 (lt_asymm h1)
  · rfl
  · rfl
  · rfl

lemma rank_inj (hip : ipNumber a.ipAddress = ipNumber b.ipAddress → a.ipAddress = b.ipAddress)
    (h : rank ipNumber a m = rank ipNumber b n) : m = n ∧ a.port = b.port ∧
      a.ipAddress = b.ipAddress := by
  obtain ⟨hm, hr⟩ := Prod.mk.inj (toLex_inj.mp h)
  obtain ⟨hp, hn⟩ := Prod.mk.inj (toLex_inj.mp hr)
  exact ⟨UInt32.toNat_inj.mp hm, Int32.toInt_inj.mp hp, hip (UInt32.toNat_inj.mp hn)⟩

/-! ## Beacons between PTMs -/

structure Identity where
  address : RemoteID
  randomID : UInt32
  port_ne : address.port ≠ 0
  ip_noSlash : slash ∉ address.ipAddress.chars

def Identity.rank (who : Identity) : ℕ ×ₗ ℤ ×ₗ ℕ := Ptm.rank ipNumber who.address who.randomID

/-- What one PTM finds when it compares itself with another. -/
def Identity.compare (mine other : Identity) : ℤ :=
  compareBeacon ipNumber mine.address mine.randomID other.address other.randomID

lemma returns_beaconIdentity (who : Identity) {s : IStream} {d : UInt8} {w : UInt32} {r : Bytes}
    {st : Errors}
    (h : s.Shows d w false (who.address.text ++ bar :: (htonl who.randomID ++ r)) st) :
    Returns beaconIdentity s (some (who.address, who.randomID)) (·.Shows bar w false r st) := by
  unfold beaconIdentity
  refine .bind (returns_delimit h bar) fun s1 h1 => ?_
  refine .bind (returns_inputRemoteID who.ip_noSlash separates_bar h1) fun s2 h2 => ?_
  refine .bind (returns_skip h2) fun s3 h3 => ?_
  refine .bind (returns_binary h3 true) fun s4 h4 => ?_
  refine .bind (returns_inputUInt32_binary h4) fun s5 h5 => ?_
  refine .bind (returns_binary h5 false) fun s6 h6 => ?_
  refine .bind (returns_get h6) fun s7 h7 => ?_
  rw [if_neg (by simp [h6.good, who.port_ne])]
  exact .pure _ h7

/-- **What a beacon does to the PTM that receives it**: nothing, or an `evQuit` if its own rank is
the smaller one. -/
theorem beaconHandle_of_sendBeacon (who : Identity) {list : List DistillerRecord} {p : Packet}
    (hp : sendBeacon who.address who.randomID list = some p) (past : UInt8) (s : State) :
    beaconHandle ipNumber p past s =
      some (true, if rank ipNumber s.myAddress s.myRandomID < who.rank ipNumber
        then { s with quit := true } else s) := by
  have hd := sendBeacon_data hp
  have hs : (ofPacket p past s.status).Shows 0 p.getLength false
      (who.address.text ++ bar :: (htonl who.randomID ++
        bar :: (distillerListText (awake list) ++ [0]))) s.status := by
    refine ⟨rfl, rfl, rfl, rfl, ?_, rfl⟩
    change p.data = _
    rw [hd]
    simp [beaconText]
  obtain ⟨s', hrun, hs'⟩ := returns_beaconIdentity who hs
  have hr : runStream p past beaconIdentity s = some (some (who.address, who.randomID), s) := by
    simp [runStream, hrun, hs'.status_eq]
  unfold beaconHandle
  refine bind_eq_some.mpr ⟨_, s, hr, bind_eq_some.mpr ⟨s, s, rfl, ?_⟩⟩
  by_cases hlt : rank ipNumber s.myAddress s.myRandomID < who.rank ipNumber
  · rw [if_pos ((compareBeacon_eq_neg_one_iff ipNumber).mpr hlt), if_pos hlt]
    rfl
  · rw [if_neg (mt (compareBeacon_eq_neg_one_iff ipNumber).mp hlt), if_neg hlt]
    rfl

/-! ## A group of PTMs -/

variable {ι : Type} [DecidableEq ι] (who : ι → Identity)

def Started (S : ι → State) : Prop :=
  ∀ i, (S i).myAddress = (who i).address ∧ (S i).myRandomID = (who i).randomID ∧
    (S i).quit = false

/-- A beacon that `m.1` sent at some time, with whatever distillers it had then, reaches `m.2`. -/
def Deliver (S : ι → State) (m : ι × ι) (S' : ι → State) : Prop :=
  ∃ list p past b s', sendBeacon (who m.1).address (who m.1).randomID list = some p ∧
    beaconHandle ipNumber p past (S m.2) = some (b, s') ∧ S' = Function.update S m.2 s'

lemma exists_deliver (S : ι → State) (m : ι × ι) : ∃ S', Deliver ipNumber who S m S' := by
  have hip : (who m.1).address.ipAddress.chars.length < 20 := (who m.1).address.ipAddress.fits
  have hpo := printInt_length_le (who m.1).address.port
  obtain ⟨p, hp⟩ := sendBeacon_isSome (who m.1).address
    (who m.1).randomID [] (by
      simp [beaconText, RemoteID.text, distillerListText, recordsText, awake, htonl]
      omega)
  exact ⟨_, [], p, 0, _, _, hp, beaconHandle_of_sendBeacon ipNumber (who m.1) hp 0 _, rfl⟩

lemma deliver_spec {S S' : ι → State} {m : ι × ι} {alive : Set ι}
    (hid : ∀ i, (S i).myAddress = (who i).address ∧ (S i).myRandomID = (who i).randomID)
    (ha : ∀ k, (S k).quit = false ↔ k ∈ alive) (h : Deliver ipNumber who S m S') :
    (∀ i, (S' i).myAddress = (who i).address ∧ (S' i).myRandomID = (who i).randomID) ∧
      ∀ k, (S' k).quit = false ↔ k ∈ Election.deliver (fun i => (who i).rank ipNumber) alive m := by
  obtain ⟨list, p, past, b, s', hp, hrun, rfl⟩ := h
  have hr : rank ipNumber (S m.2).myAddress (S m.2).myRandomID = (who m.2).rank ipNumber := by
    rw [(hid m.2).1, (hid m.2).2]
    rfl
  rw [beaconHandle_of_sendBeacon ipNumber (who m.1) hp, hr] at hrun
  cases hrun
  refine ⟨fun i => ?_, fun k => ?_⟩
  · by_cases hi : i = m.2
    · rw [hi, Function.update_self]
      split_ifs <;> exact hid m.2
    · rw [Function.update_of_ne hi]
      exact hid i
  · by_cases hk : k = m.2
    · subst hk
      rw [Function.update_self]
      split_ifs with hlt
      · simp [Election.deliver, hlt]
      · simp [Election.deliver, not_lt.mp hlt, ha]
    · rw [Function.update_of_ne hk, ha]
      simp [Election.deliver, hk]

/-- **The group runs the abstract election**: after any sequence of deliveries, the PTMs that have
not posted `evQuit` are the survivors of that sequence. -/
theorem quit_iff_survivors {S0 S : ι → State} {deliveries : List (ι × ι)}
    (hs : Started who S0) (hrun : Run (Deliver ipNumber who) S0 deliveries S) (k : ι) :
    (S k).quit = false ↔ k ∈ Election.survivors (fun i => (who i).rank ipNumber) deliveries := by
  have hid : ∀ i, (S0 i).myAddress = (who i).address ∧ (S0 i).myRandomID = (who i).randomID :=
    fun i => ⟨(hs i).1, (hs i).2.1⟩
  have ha : ∀ k, (S0 k).quit = false ↔ k ∈ (Set.univ : Set ι) := fun k => by
    simp [(hs k).2.2]
  unfold Election.survivors
  generalize (Set.univ : Set ι) = alive at ha ⊢
  clear hs
  induction hrun generalizing alive with
  | nil S => exact ha k
  | cons hst _ ih =>
    obtain ⟨hi', ha'⟩ := deliver_spec ipNumber who hid ha hst
    exact ih hi' _ ha'

/-- **Election safety.**  Among PTMs with pairwise different triples, whose addresses `inet_addr`
tells apart, the comparison is a strict total order.  Whatever beacons are delivered, in whatever
order and however often, the greatest PTM never posts `evQuit`, and once all PTMs that are left
have processed each other's beacons exactly one is left. -/
theorem election_safety [Finite ι] [Nonempty ι]
    (hdistinct : Function.Injective fun i =>
      ((who i).randomID, (who i).address.port, (who i).address.ipAddress))
    (hinet : Set.InjOn ipNumber (Set.range fun i => (who i).address.ipAddress))
    {S₀ S : ι → State} {deliveries : List (ι × ι)} (hstart : Started who S₀)
    (hrun : Run (Deliver ipNumber who) S₀ deliveries S) :
    (∀ i j, (who i).compare ipNumber (who j) = -(who j).compare ipNumber (who i)) ∧
    (∀ i j, (who i).compare ipNumber (who j) = 0 ↔ i = j) ∧
    (∀ i j, (who i).compare ipNumber (who j) ∈ ({-1, 0, 1} : Set ℤ)) ∧
    (∀ i j k, (who i).compare ipNumber (who j) = -1 → (who j).compare ipNumber (who k) = -1 →
      (who i).compare ipNumber (who k) = -1) ∧
    (∀ g, (∀ i, i ≠ g → (who i).compare ipNumber (who g) = -1) → (S g).quit = false) ∧
    ((∀ i j, i ≠ j → (S i).quit = false → (S j).quit = false → (i, j) ∈ deliveries) →
      ∃! i, (S i).quit = false) := by
  have hkey : Function.Injective fun i => (who i).rank ipNumber := by
    intro i j hij
    obtain ⟨h1, h2, h3⟩ := rank_inj ipNumber
      (fun h => hinet (Set.mem_range_self i) (Set.mem_range_self j) h) hij
    exact hdistinct (Prod.ext h1 (Prod.ext h2 h3))
  have hlt : ∀ i j, (who i).compare ipNumber (who j) = -1 ↔
      (who i).rank ipNumber < (who j).rank ipNumber :=
    fun i j => compareBeacon_eq_neg_one_iff ipNumber
  have hl := quit_iff_survivors ipNumber who hstart hrun
  refine ⟨fun i j => compareBeacon_swap .., fun i j => ?_, fun i j => ?_, fun i j k hij hjk => ?_,
    fun g hg => ?_, fun he => ?_⟩
  · exact (compareBeacon_eq_zero_iff ipNumber).trans hkey.eq_iff
  · rw [Identity.compare, compareBeacon_eq]
    split_ifs <;> simp
  · exact (hlt i k).mpr (lt_trans ((hlt i j).mp hij) ((hlt j k).mp hjk))
  · rw [hl]
    refine Election.mem_survivors.mpr fun i _ => ?_
    by_cases hi : i = g
    · rw [hi]
    · exact ((hlt i g).mp (hg i hi)).le
  · -- the greatest PTM is left, and nobody else
    obtain ⟨g, hg⟩ := Finite.exists_max fun i => (who i).rank ipNumber
    have hgr := (hl g).mpr (Election.mem_survivors.mpr fun i _ => hg i)
    have ho : (Election.survivors (fun i => (who i).rank ipNumber) deliveries).Subsingleton :=
      Election.survivors_subsingleton hkey fun i hi j hj hij =>
        he i j hij ((hl i).mpr hi) ((hl j).mpr hj)
    exact ⟨g, hgr, fun i hi => ho ((hl i).mp hi) ((hl g).mp hgr)⟩

end

def samplePair : Bool → Identity
  | false => ⟨⟨⟨[49], by decide, by decide⟩, 80⟩, 3, by decide, by decide⟩
  | true => ⟨⟨⟨[50], by decide, by decide⟩, 80⟩, 9, by decide, by decide⟩

/-- `inet_addr`, for an address of one digit. -/
def sampleNumber (ip : CString MAXIP) : UInt32 := ofNat ((ip.chars.headD 48).toNat - 48) <<< 24

/-- Both of two PTMs hear from each other: the one with the larger random id is left alone. -/
theorem election_safety_pair : ∃ S : Bool → State, Run (Deliver sampleNumber samplePair)
      (fun i => State.start (samplePair i).address (samplePair i).randomID)
      [(false, true), (true, false)] S ∧ ∃! i, (S i).quit = false := by
  have hs : Started samplePair
      fun i => State.start (samplePair i).address (samplePair i).randomID :=
    fun i => ⟨rfl, rfl, rfl⟩
  obtain ⟨S₁, h1⟩ := exists_deliver sampleNumber samplePair
    (fun i => State.start (samplePair i).address (samplePair i).randomID) (false, true)
  obtain ⟨S₂, h2⟩ := exists_deliver sampleNumber samplePair S₁ (true, false)
  have hrun := Run.cons h1 (Run.cons h2 (Run.nil S₂))
  refine ⟨_, hrun, (election_safety _ samplePair ?_ ?_ hs hrun).2.2.2.2.2 ?_⟩
  · intro i j
    cases i <;> cases j <;> decide +kernel
  · rintro _ ⟨i, rfl⟩ _ ⟨j, rfl⟩
    cases i <;> cases j <;> decide +kernel
  · intro i j hij _ _
    cases i <;> cases j <;> simp_all

end Glomop.Ptm
