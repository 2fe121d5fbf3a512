import Glomop.Lib.CText

/-!
# The partition of a URL

The client library spreads URLs over the partitions of a cache by the MD5 digest of the host's name,
so that everything from one host is in one partition.  The digest's first word is taken as a signed
number, and its sign is dropped, which does not work for the smallest number: its remainder is
negative, unless the number of partitions divides it (`partition_right_iff`).
-/

namespace Glomop.ClientLib.Part

open Lib

abbrev Digest := Vector UInt8 16

/-- The characters of the string that `get_part_number` hands to MD5: the name of the host, or the
whole URL.
`part.c` `get_part_number`. -/
def hashed (url : Bytes) : Bytes :=
  if url.head? = some 104 then
    match url.dropWhile (· ≠ 47) with
    | _ :: 47 :: rest =>
      if rest.dropWhile (· ≠ 47) = [] then rest
      else
        let diff := (rest.takeWhile (· ≠ 47)).length
        if diff > 0 then rest.take (min diff 1020) else url
    | _ => url
  else url

def firstWord (digest : Digest) : UInt32 :=
  UInt32.ofNat (((digest[0].toNat * 256 + digest[1].toNat) * 256 + digest[2].toNat) * 256 +
    digest[3].toNat)

/-- `bits`, without its sign.  A `long` has 32 bits. -/
def bits (word : UInt32) : Int32 :=
  let bits := word.toInt32
  if bits < 0 then bits * -1 else bits

def getPartNumber (md5 : Bytes → Digest) (numPartitions : ℤ) (url : Bytes) : ℤ :=
  if numPartitions = 0 then -1
  else (bits (firstWord (md5 (hashed url)))).toInt.tmod numPartitions

/-- `http://host` or `http://host/path`. -/
def httpURL (host : Bytes) (path : Option Bytes) : Bytes :=
  [104, 116, 116, 112, 58, 47, 47] ++ host ++
    match path with
    | none => []
    | some path => 47 :: path

def CoLocates (md5 : Bytes → Digest) (n : ℤ) : Prop :=
  ∀ host path path', host ≠ [] → host.length ≤ 1020 → 47 ∉ host →
    getPartNumber md5 n (httpURL host path) = getPartNumber md5 n (httpURL host path')

lemma hashed_http (rest : Bytes) :
    hashed ([104, 116, 116, 112, 58, 47, 47] ++ rest) =
      if rest.dropWhile (· ≠ 47) = [] then rest
      else if (rest.takeWhile (· ≠ 47)).length > 0 then
        rest.take (min (rest.takeWhile (· ≠ 47)).length 1020)
      else [104, 116, 116, 112, 58, 47, 47] ++ rest := rfl

/-- **What is hashed** for a URL of a host is the host's name, with a path and without. -/
theorem hashed_httpURL {host : Bytes} (hne : host ≠ []) (hlen : host.length ≤ 1020)
    (hs : 47 ∉ host) (path : Option Bytes) : hashed (httpURL host path) = host := by
  have hn : ∀ c ∈ host, decide (c ≠ 47) = true := by
    intro c hc
    exact decide_eq_true fun h => hs (h ▸ hc)
  unfold httpURL
  rw [List.append_assoc, hashed_http]
  cases path with
  | none => rw [List.append_nil, List.dropWhile_eq_nil_iff.mpr hn, if_pos rfl]
  | some path =>
    have hd : (host ++ 47 :: path).dropWhile (· ≠ 47) = 47 :: path := by
      rw [List.dropWhile_append_of_pos hn]
      rfl
    have ht : (host ++ 47 :: path).takeWhile (· ≠ 47) = host := by
      rw [List.takeWhile_append_of_pos hn]
      simp
    rw [hd, ht, if_neg (List.cons_ne_nil _ _), if_pos (List.length_pos_iff.mpr hne),
      Nat.min_eq_left hlen, List.take_left]

lemma coLocates (md5 : Bytes → Digest) (n : ℤ) : CoLocates md5 n := by
  intro host path path' hne hlen hs
  rw [getPartNumber, getPartNumber, hashed_httpURL hne hlen hs, hashed_httpURL hne hlen hs]

lemma bits_nonneg {word : UInt32} (h : word ≠ 2147483648) : 0 ≤ (bits word).toInt := by
  have hne : word.toInt32.toInt ≠ -2 ^ 31 := by
    intro hm
    have heq : word.toInt32 = (2147483648 : UInt32).toInt32 := Int32.toInt_inj.mp hm
    exact h (congrArg Int32.toUInt32 heq)
  have hle := word.toInt32.le_toInt
  unfold bits
  dsimp only
  split_ifs with hn
  · have hlt := Int32.lt_iff_toInt_lt.mp hn
    have hz : (0 : Int32).toInt = 0 := rfl
    have ho : (-1 : Int32).toInt = -1 := rfl
    rw [Int32.toInt_mul, ho, Int.bmod_eq_of_le (by omega) (by omega)]
    omega
  · rw [Int32.lt_iff_toInt_lt] at hn
    exact not_lt.mp hn

/-- **When the partition is right**: exactly if the first word of the digest is not `2 ^ 31`, or the
number of partitions divides that. -/
theorem partition_right_iff (md5 : Bytes → Digest) (n : ℤ) (hn : 1 ≤ n) (url : Bytes) :
    ((0 ≤ getPartNumber md5 n url ∧ getPartNumber md5 n url < n) ∧ CoLocates md5 n) ↔
      (firstWord (md5 (hashed url)) = 2147483648 → n ∣ 2 ^ 31) := by
  have hv : getPartNumber md5 n url =
      (bits (firstWord (md5 (hashed url)))).toInt.tmod n := if_neg (by omega)
  rw [hv, and_iff_left (coLocates md5 n)]
  by_cases hw : firstWord (md5 (hashed url)) = 2147483648
  · have hm : (bits 2147483648).toInt = -2 ^ 31 := rfl
    have hne : (-2 ^ 31 : ℤ).tmod n ≤ 0 := by
      rw [Int.neg_tmod]
      exact neg_nonpos.mpr (Int.tmod_nonneg n (by decide))
    rw [hw, hm, ← dvd_neg, Int.dvd_iff_tmod_eq_zero]
    constructor
    · rintro ⟨hl, -⟩ -
      exact le_antisymm hne hl
    · intro hz
      rw [hz rfl]
      omega
  · refine iff_of_true ⟨Int.tmod_nonneg n (bits_nonneg hw), Int.tmod_lt_of_pos _ (by omega)⟩
      fun h => absurd h hw

def digestOf (a b c d : UInt8) : Digest := ⟨#[a, b, c, d, 0, 0, 0, 0, 0, 0, 0, 0, 0, 0, 0, 0], rfl⟩

theorem partition_right_three :
    (0 ≤ getPartNumber (fun _ => digestOf 255 0 0 7) 3 [104] ∧
      getPartNumber (fun _ => digestOf 255 0 0 7) 3 [104] < 3) ∧
      CoLocates (fun _ => digestOf 255 0 0 7) 3 :=
  (partition_right_iff _ 3 (by decide) [104]).mpr fun h => absurd h (by decide)

/-- **A negative partition**, of three. -/
theorem partition_negative : getPartNumber (fun _ => digestOf 128 0 0 0) 3 [104] = -2 := by
  decide

end Glomop.ClientLib.Part
