import Glomop.Cache.DistillerCache
import Glomop.Lib.Weighted

/-!
# The lottery

A front end chooses among distillers by a lottery: the less work, the more tickets.
`DistillerCache::Find_Lottery_` goes through the records twice, to count the tickets and to find the
winner, and other threads may lower the pending counts in between.  A latency of `2 ^ 31` or more is
negative as an `int` and counts as none at all; apart from that the lottery is exact
(`exactLottery_iff`).  Source: `cache.h`.
-/

namespace Glomop.Cache

open Lib List UInt32

/-- The latency with the pending requests added to it.  `CachedDistiller::getTickets`. -/
def corrected (latency : UInt32) (correction : Int32) : UInt32 :=
  if latency.toInt32 < -correction then 0 else latency + correction.toUInt32

/-- `CachedDistiller::getTickets`. -/
def ticketsFor (latency : UInt32) (correction : Int32) : UInt32 :=
  (100 : UInt32) / ((corrected latency correction >>> 2) + 1) + 1

namespace CachedRecord

def getTickets (r : CachedRecord) : UInt32 := ticketsFor r.load.totalLatency_ms r.pendingCount

def shouldIgnore (_ : CachedRecord) : Bool := false

def takesPart (type : DistillerType) (r : CachedRecord) : Bool :=
  canSatisfy r.type type && !r.shouldIgnore

end CachedRecord

section

variable (type : DistillerType)

def totalTickets (total : UInt32) : List CachedRecord → UInt32
  | [] => total
  | r :: records =>
    totalTickets (if r.takesPart type then total + r.getTickets else total) records

def findWinner (winner total : UInt32) : List CachedRecord → Option CachedRecord
  | [] => none
  | r :: records =>
    if r.takesPart type then
      if winner < total + r.getTickets then some r
      else findWinner winner (total + r.getTickets) records
    else findWinner winner total records

/-- `later` are the records as the second pass sees them, and `random` is what `lrand48` returns.
`cache.cc`. -/
def findLottery (random : UInt32) (records later : List CachedRecord) : Option CachedRecord :=
  if totalTickets type 0 records = 0 then none
  else findWinner type (random % totalTickets type 0 records) 0 later

end

abbrev recordSize : ℕ := (MAXIP + 4) + MAXDISTILLER_TYPE_STRING + 8

/-- A cache whose records are in the memory of a 32-bit process. -/
structure StoredCache extends DistillerCache where
  inMemory : records.entries.length * recordSize < 2 ^ 32
  counts : ∀ r ∈ records.entries, -2 ^ 31 < r.pendingCount.toInt

/-! ## Tickets -/

lemma toInt_toInt32 (v : UInt32) :
    v.toInt32.toInt = if v.toNat < 2 ^ 31 then (v.toNat : ℤ) else v.toNat - 2 ^ 32 := by
  have hb : v.toInt32.toInt = v.toBitVec.toInt := rfl
  rw [hb, BitVec.toInt_eq_toNat_cond, toNat_toBitVec]
  split_ifs <;> omega

lemma toNat_toUInt32 (c : Int32) : (c.toUInt32.toNat : ℤ) = c.toInt % 2 ^ 32 := by
  have hb : c.toInt = c.toUInt32.toBitVec.toInt := rfl
  have hlt := c.toUInt32.toNat_lt
  rw [hb, BitVec.toInt_eq_toNat_cond, toNat_toBitVec]
  split_ifs <;> omega

lemma toInt_neg_of_lt {c : Int32} (h : -2 ^ 31 < c.toInt) : (-c).toInt = -c.toInt := by
  have hlt := c.toInt_lt
  rw [Int32.toInt_neg, Int.bmod_eq_of_le]
  · norm_num
    omega
  · norm_num
    omega

variable {correction : Int32} {r : CachedRecord} {records : List CachedRecord}

lemma toNat_corrected (latency : UInt32) (h : -2 ^ 31 < correction.toInt) :
    (corrected latency correction).toNat = (latency.toInt32.toInt + correction.toInt).toNat := by
  have hint := toInt_toInt32 latency
  have hw := toNat_toUInt32 correction
  have hla := latency.toNat_lt
  have hc := correction.toInt_lt
  unfold corrected
  split_ifs with hl
  · rw [Int32.lt_iff_toInt_lt, toInt_neg_of_lt h] at hl
    have hz : (0 : UInt32).toNat = 0 := rfl
    omega
  · rw [Int32.lt_iff_toInt_lt, toInt_neg_of_lt h] at hl
    rw [UInt32.toNat_add]
    split_ifs at hint <;> omega

lemma toNat_ticketsFor (latency : UInt32) (correction : Int32) :
    (ticketsFor latency correction).toNat =
      100 / ((corrected latency correction).toNat / 4 + 1) + 1 := by
  have hlt := (corrected latency correction).toNat_lt
  have hs : (corrected latency correction >>> 2).toNat =
      (corrected latency correction).toNat / 4 := by
    rw [UInt32.toNat_shiftRight]
    exact Nat.shiftRight_eq_div_pow _ 2
  have hp : ((corrected latency correction >>> 2) + 1).toNat =
      (corrected latency correction).toNat / 4 + 1 := by
    rw [UInt32.toNat_add, hs]
    have ho : (1 : UInt32).toNat = 1 := rfl
    omega
  have hh : (100 : UInt32).toNat = 100 := rfl
  have ho : (1 : UInt32).toNat = 1 := rfl
  unfold ticketsFor
  rw [UInt32.toNat_add, UInt32.toNat_div, hp, hh, ho]
  have hle := Nat.div_le_self 100 ((corrected latency correction).toNat / 4 + 1)
  exact Nat.mod_eq_of_lt ((Nat.add_le_add_right hle 1).trans_lt (by decide))

lemma ticketsFor_pos (latency : UInt32) (correction : Int32) :
    1 ≤ (ticketsFor latency correction).toNat := by
  rw [toNat_ticketsFor]
  exact Nat.le_add_left _ _

lemma ticketsFor_le (latency : UInt32) (correction : Int32) :
    (ticketsFor latency correction).toNat ≤ 101 := by
  rw [toNat_ticketsFor]
  exact Nat.add_le_add_right (Nat.div_le_self _ _) 1

lemma ticketsFor_anti {latency latency' : UInt32} {correction' : Int32}
    (h : (corrected latency correction).toNat ≤ (corrected latency' correction').toNat) :
    (ticketsFor latency' correction').toNat ≤ (ticketsFor latency correction).toNat := by
  rw [toNat_ticketsFor, toNat_ticketsFor]
  refine Nat.add_le_add_right (Nat.div_le_div_left ?_ (Nat.succ_pos _)) 1
  exact Nat.add_le_add_right (Nat.div_le_div_right h) 1

/-- **Latencies on the same side of `2 ^ 31`** are compared as they should be. -/
theorem ticketsFor_mono {a b : UInt32} (h : -2 ^ 31 < correction.toInt)
    (hs : a.toNat < 2 ^ 31 → b.toNat < 2 ^ 31) (hle : a ≤ b) :
    (ticketsFor b correction).toNat ≤ (ticketsFor a correction).toNat := by
  refine ticketsFor_anti ?_
  have ha := toInt_toInt32 a
  have hb := toInt_toInt32 b
  rw [le_iff_toNat_le] at hle
  rw [toNat_corrected a h, toNat_corrected b h]
  split_ifs at ha hb <;> omega

lemma exists_ticketsFor_lt {a b : UInt32} (ha : a.toNat < 2 ^ 31) (hb : 2 ^ 31 ≤ b.toNat) :
    ∃ correction : Int32, -2 ^ 31 < correction.toInt ∧
      (ticketsFor a correction).toNat < (ticketsFor b correction).toNat := by
  have hlt := b.toNat_lt
  have hc : (Int32.ofInt (400 - a.toNat)).toInt = 400 - a.toNat := by
    rw [Int32.toInt_ofInt, Int.bmod_eq_of_le]
    all_goals
      norm_num
      omega
  have hgt : -2 ^ 31 < (Int32.ofInt (400 - a.toNat)).toInt := by omega
  refine ⟨_, hgt, ?_⟩
  have hint := toInt_toInt32 a
  have hint' := toInt_toInt32 b
  rw [if_pos ha] at hint
  rw [if_neg (Nat.not_lt.mpr hb)] at hint'
  have hf : (corrected a (Int32.ofInt (400 - a.toNat))).toNat = 400 := by
    rw [toNat_corrected a hgt]
    omega
  have hm : (corrected b (Int32.ofInt (400 - a.toNat))).toNat < 400 := by
    rw [toNat_corrected b hgt]
    omega
  rw [toNat_ticketsFor, toNat_ticketsFor, hf]
  have hq : (corrected b (Int32.ofInt (400 - a.toNat))).toNat / 4 + 1 ≤ 100 := by omega
  have hd : 1 ≤ 100 / ((corrected b (Int32.ofInt (400 - a.toNat))).toNat / 4 + 1) :=
    (Nat.one_le_div_iff (Nat.succ_pos _)).mpr hq
  omega

/-! ## The two passes -/

section Passes

variable {type : DistillerType}

def tickets (r : CachedRecord) : ℕ := r.getTickets.toNat

def participants (type : DistillerType) (records : List CachedRecord) : List CachedRecord :=
  records.filter (·.takesPart type)

lemma takesPart_eq (r : CachedRecord) : r.takesPart type = canSatisfy r.type type := by
  simp [CachedRecord.takesPart, CachedRecord.shouldIgnore]

lemma mem_participants :
    r ∈ participants type records ↔ r ∈ records ∧ canSatisfy r.type type = true := by
  rw [participants, mem_filter, takesPart_eq]

lemma participants_cons_of_pos (h : r.takesPart type = true) (records : List CachedRecord) :
    participants type (r :: records) = r :: participants type records :=
  filter_cons_of_pos h

lemma participants_cons_of_neg (h : ¬ r.takesPart type = true) (records : List CachedRecord) :
    participants type (r :: records) = participants type records :=
  filter_cons_of_neg h

lemma totalWeight_lt (type : DistillerType) (h : records.length * recordSize < 2 ^ 32) :
    totalWeight tickets (participants type records) < 2 ^ 32 := by
  have hle : totalWeight tickets (participants type records) ≤
      101 * (participants type records).length :=
    totalWeight_le fun r _ => ticketsFor_le r.load.totalLatency_ms r.pendingCount
  have hl : (participants type records).length ≤ records.length := length_filter_le _ _
  have hs : recordSize = 112 := rfl
  rw [hs] at h
  omega

lemma toNat_add_tickets {total : UInt32} (h : total.toNat + tickets r < 2 ^ 32) :
    (total + r.getTickets).toNat = total.toNat + tickets r := by
  rw [UInt32.toNat_add]
  exact Nat.mod_eq_of_lt h

/-- **The first pass** counts the tickets. -/
theorem toNat_totalTickets {total : UInt32}
    (h : total.toNat + totalWeight tickets (participants type records) < 2 ^ 32) :
    (totalTickets type total records).toNat =
      total.toNat + totalWeight tickets (participants type records) := by
  induction records generalizing total with
  | nil => rfl
  | cons r records ih =>
    rw [totalTickets]
    by_cases hp : r.takesPart type = true
    · rw [participants_cons_of_pos hp, totalWeight_cons] at h ⊢
      have hs := toNat_add_tickets (show total.toNat + tickets r < 2 ^ 32 by omega)
      rw [if_pos hp, ih (by omega), hs, Nat.add_assoc]
    · rw [participants_cons_of_neg hp] at h ⊢
      rw [if_neg hp, ih h]

/-- **The second pass** finds the holder of the winning ticket. -/
theorem findWinner_eq_pick {winner total : UInt32} (hle : total.toNat ≤ winner.toNat)
    (h : total.toNat + totalWeight tickets (participants type records) < 2 ^ 32) :
    findWinner type winner total records =
      pick tickets (participants type records) (winner.toNat - total.toNat) := by
  induction records generalizing total with
  | nil => rfl
  | cons r records ih =>
    rw [findWinner]
    by_cases hp : r.takesPart type = true
    · rw [participants_cons_of_pos hp, totalWeight_cons] at h
      rw [participants_cons_of_pos hp, if_pos hp, pick]
      have hs := toNat_add_tickets (show total.toNat + tickets r < 2 ^ 32 by omega)
      by_cases hw : winner < total + r.getTickets
      · have hlt := lt_iff_toNat_lt.mp hw
        rw [if_pos hw, if_pos (by omega)]
      · have hge := mt lt_iff_toNat_lt.mpr hw
        rw [if_neg hw, if_neg (by omega), ih (by omega) (by omega), hs, Nat.sub_sub]
    · rw [participants_cons_of_neg hp] at h ⊢
      rw [if_neg hp, ih hle h]

end Passes

/-! ## The lottery -/

structure Lowered (r r' : CachedRecord) : Prop where
  basic_eq : r'.toBasicDistiller = r.toBasicDistiller
  count_le : r'.pendingCount.toInt ≤ r.pendingCount.toInt
  count_gt : -2 ^ 31 < r'.pendingCount.toInt

/-- **The lottery is exact**: somebody wins if somebody takes part, every participant wins as often
as it has tickets, and with the same correction more work never means more tickets. -/
structure ExactLottery (records : List CachedRecord) (type : DistillerType) : Prop where
  nobody_iff : ∀ random, findLottery type random records records = none ↔
    ∀ r ∈ records, canSatisfy r.type type = false
  can_satisfy : ∀ random r, findLottery type random records records = some r →
    r ∈ records ∧ canSatisfy r.type type = true
  proportional : ∀ r ∈ records, canSatisfy r.type type = true →
    (List.range (totalTickets type 0 records).toNat).countP
      (fun winner => findLottery type (UInt32.ofNat winner) records records = some r) =
        r.getTickets.toNat
  concurrent : ∀ random later, List.Forall₂ Lowered records later →
    (∃ r ∈ records, canSatisfy r.type type = true) →
    findLottery type random records later ≠ none
  bounds : ∀ r ∈ records, 1 ≤ r.getTickets ∧ r.getTickets ≤ 101
  monotone : ∀ r ∈ records, ∀ r' ∈ records,
    r.load.totalLatency_ms ≤ r'.load.totalLatency_ms → ∀ correction : Int32,
      -2 ^ 31 < correction.toInt →
      ticketsFor r'.load.totalLatency_ms correction ≤ ticketsFor r.load.totalLatency_ms correction

section Exact

variable {records later : List CachedRecord} {type : DistillerType}

lemma one_le_getTickets (r : CachedRecord) : 1 ≤ r.getTickets ∧ r.getTickets ≤ 101 := by
  have hpos := ticketsFor_pos r.load.totalLatency_ms r.pendingCount
  have hle := ticketsFor_le r.load.totalLatency_ms r.pendingCount
  exact ⟨le_iff_toNat_le.mpr hpos, le_iff_toNat_le.mpr hle⟩

lemma totalWeight_pos_iff :
    0 < totalWeight tickets (participants type records) ↔
      ∃ r ∈ records, canSatisfy r.type type = true := by
  constructor
  · intro hpos
    obtain ⟨r, hr⟩ := Option.isSome_iff_exists.mp (pick_isSome_iff.mpr hpos)
    exact ⟨r, mem_participants.mp (pick_mem hr)⟩
  · rintro ⟨r, hr, hs⟩
    have hmem : r ∈ participants type records := mem_participants.mpr ⟨hr, hs⟩
    have hle : tickets r ≤ totalWeight tickets (participants type records) :=
      single_le_sum (fun _ _ => Nat.zero_le _) _ (mem_map_of_mem hmem)
    exact (ticketsFor_pos r.load.totalLatency_ms r.pendingCount).trans hle

section

variable (hr : records.length * recordSize < 2 ^ 32)

include hr

lemma toNat_totalTickets_zero (type : DistillerType) :
    (totalTickets type 0 records).toNat = totalWeight tickets (participants type records) := by
  have hlt := totalWeight_lt type hr
  rw [toNat_totalTickets, UInt32.toNat_zero, Nat.zero_add]
  rwa [UInt32.toNat_zero, Nat.zero_add]

/-- **What the lottery comes to**: a ticket is drawn from those counted in the first pass, and its
holder is looked for among the records of the second. -/
theorem findLottery_eq (hl : later.length * recordSize < 2 ^ 32) (random : UInt32) :
    findLottery type random records later =
      if totalWeight tickets (participants type records) = 0 then none
      else pick tickets (participants type later)
        (random.toNat % totalWeight tickets (participants type records)) := by
  have hc := toNat_totalTickets_zero hr type
  have hzero_iff : totalTickets type 0 records = 0 ↔
      totalWeight tickets (participants type records) = 0 := by
    rw [← hc, ← UInt32.toNat_inj]
    rfl
  unfold findLottery
  by_cases hn : totalTickets type 0 records = 0
  · rw [if_pos hn, if_pos (hzero_iff.mp hn)]
  · rw [if_neg hn, if_neg (mt hzero_iff.mpr hn), ← hc, ← UInt32.toNat_mod]
    refine findWinner_eq_pick (Nat.zero_le _) ?_
    have hlt := totalWeight_lt type hl
    rw [UInt32.toNat_zero]
    omega

lemma findLottery_ne_none
    (hl : later.length * recordSize < 2 ^ 32)
    (hle : totalWeight tickets (participants type records) ≤
      totalWeight tickets (participants type later))
    (hs : ∃ r ∈ records, canSatisfy r.type type = true) (random : UInt32) :
    findLottery type random records later ≠ none := by
  have hpos := totalWeight_pos_iff.mpr hs
  rw [findLottery_eq hr hl, if_neg hpos.ne', Option.ne_none_iff_isSome, pick_isSome_iff]
  exact (Nat.mod_lt _ hpos).trans_le hle

lemma mem_of_findLottery {random : UInt32} (h : findLottery type random records records = some r) :
    r ∈ records ∧ canSatisfy r.type type = true := by
  rw [findLottery_eq hr hr] at h
  split_ifs at h
  exact mem_participants.mp (pick_mem h)

end

lemma countP_findLottery (hre : records.length * recordSize < 2 ^ 32)
    (hn : records.Nodup) (hr : r ∈ records) (hs : canSatisfy r.type type = true) :
    (List.range (totalTickets type 0 records).toNat).countP
      (fun winner => findLottery type (ofNat winner) records records = some r) =
        r.getTickets.toNat := by
  have hpos : 0 < totalWeight tickets (participants type records) :=
    totalWeight_pos_iff.mpr ⟨r, hr, hs⟩
  have hlt := totalWeight_lt type hre
  have hd : (List.range (totalWeight tickets (participants type records))).countP
      (fun winner => pick tickets (participants type records) winner = some r) = tickets r :=
    countP_pick (hn.filter _) (mem_participants.mpr ⟨hr, hs⟩)
  rw [toNat_totalTickets_zero hre]
  refine (countP_congr fun winner hw => ?_).trans hd
  have hw := mem_range.mp hw
  rw [findLottery_eq hre hre, if_neg hpos.ne', toNat_ofNat',
    Nat.mod_eq_of_lt (hw.trans hlt), Nat.mod_eq_of_lt hw]

lemma totalWeight_le_of_lowered (hl : List.Forall₂ Lowered records later)
    (hc : ∀ r ∈ records, -2 ^ 31 < r.pendingCount.toInt) :
    totalWeight tickets (participants type records) ≤
      totalWeight tickets (participants type later) := by
  induction hl with
  | nil => exact le_rfl
  | @cons r r' records later hr _ ih =>
    obtain ⟨hco, hc⟩ := forall_mem_cons.mp hc
    have hp : r'.takesPart type = r.takesPart type := by
      rw [takesPart_eq, takesPart_eq, hr.basic_eq]
    have hti : tickets r ≤ tickets r' := by
      unfold tickets CachedRecord.getTickets
      refine ticketsFor_anti ?_
      rw [toNat_corrected _ hco, toNat_corrected _ hr.count_gt, hr.basic_eq]
      have hle := hr.count_le
      omega
    by_cases ht : r.takesPart type = true
    · rw [participants_cons_of_pos ht, participants_cons_of_pos (hp.trans ht),
        totalWeight_cons, totalWeight_cons]
      exact Nat.add_le_add hti (ih hc)
    · rw [participants_cons_of_neg ht, participants_cons_of_neg (fun h => ht (hp.symm.trans h))]
      exact ih hc

/-- The latencies are all on the same side of `2 ^ 31`. -/
def SameSide (records : List CachedRecord) : Prop :=
  ∀ r ∈ records, ∀ r' ∈ records,
    r.load.totalLatency_ms.toNat < 2 ^ 31 → r'.load.totalLatency_ms.toNat < 2 ^ 31

/-- **Which lotteries are exact**: all, as far as the choice goes; but the tickets favour the
distillers with less work only if no latency is `2 ^ 31` or more, or all are. -/
theorem exactLottery_iff (cache : StoredCache) (type : DistillerType) :
    ExactLottery cache.records.entries type ↔ SameSide cache.records.entries := by
  have hm := cache.inMemory
  constructor
  · intro h r hr r' hr' hs
    by_contra hla
    rw [Nat.not_lt] at hla
    obtain ⟨correction, hgt, hmo⟩ := exists_ticketsFor_lt hs hla
    have hle : r.load.totalLatency_ms ≤ r'.load.totalLatency_ms := le_iff_toNat_le.mpr (by omega)
    have hf := le_iff_toNat_le.mp (h.monotone r hr r' hr' hle correction hgt)
    omega
  · intro hsi
    have hno : cache.records.entries.Nodup := Nodup.of_map _ cache.records.nodup
    refine ⟨fun random => ?_, fun random r hr => mem_of_findLottery hm hr,
      fun r hr hsa => countP_findLottery hm hno hr hsa,
      fun random later hl hso => ?_, fun r _ => one_le_getTickets r, ?_⟩
    · constructor
      · intro hn r hr
        rw [Bool.eq_false_iff]
        intro hsa
        exact findLottery_ne_none hm hm le_rfl ⟨r, hr, hsa⟩ random hn
      · intro hn
        rw [Option.eq_none_iff_forall_ne_some]
        intro r hr
        obtain ⟨hmem, hsa⟩ := mem_of_findLottery hm hr
        exact Bool.false_ne_true ((hn r hmem).symm.trans hsa)
    · have hlt : later.length * recordSize < 2 ^ 32 := hl.length_eq ▸ hm
      exact findLottery_ne_none hm hlt (totalWeight_le_of_lowered hl cache.counts) hso random
    · intro r hr r' hr' hle correction hgt
      exact le_iff_toNat_le.mpr (ticketsFor_mono hgt (hsi r hr r' hr') hle)

end Exact

/-! ## A distiller that reports too much -/

/-- A cache of two distillers, one that reports a latency of 100 ms and one of `2 ^ 31` ms. -/
def idleAndBusy : StoredCache where
  records := {
    entries := [⟨⟨⟨CString.empty _, 1⟩, CString.empty _, ⟨100, 0⟩⟩, false, true, 0⟩,
      ⟨⟨⟨CString.empty _, 2⟩, CString.empty _, ⟨2147483648, 0⟩⟩, false, true, 0⟩]
    nodup := by decide }
  hashable := by decide
  inMemory := by decide
  counts := by decide

/-- The distiller with far more work gets 101 tickets, the other one 4. -/
theorem busy_favoured :
    idleAndBusy.records.entries.map (·.getTickets) = [4, 101] ∧
      ¬ ExactLottery idleAndBusy.records.entries (CString.empty _) := by
  refine ⟨by decide, fun h => ?_⟩
  have hm := h.monotone _ (.head _) _ (.tail _ (.head _)) (by decide) 0 (by decide)
  exact absurd hm (by decide)

end Glomop.Cache
