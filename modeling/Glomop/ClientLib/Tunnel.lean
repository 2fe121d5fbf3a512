import Glomop.Lib.CText

/-!
# The tunnel

`tunnel` relays an answer block by block once it is longer than a threshold.  The length of a block
is unsigned: if a `read` fails, it is taken for a block, and `correct_write` takes its length for a
request to write a string, which is what the block before has left in the buffer.  Otherwise the
client gets a prefix of the answer (`cut_through_iff`).
-/

namespace Glomop.ClientLib.Tunnel

open Lib List Option

/-- What a call of `read` returns: data, an error to try again, or another error.  Behind the last
one is the end of the file. -/
inductive ReadResult
  | data (c : UInt8) (bytes : Bytes)
  | again
  | failed
deriving DecidableEq

/-- What a call of `write` returns; behind the last one, all is written. -/
inductive WriteResult
  | wrote (count : ℕ)
  | again
  | failed
deriving DecidableEq

/-- What `correct_write` returns: the length of the data, or the result of a `write` that failed. -/
inductive WriteReturn
  | whole
  | zero
  | error
deriving DecidableEq

/-- What is written, what is returned, and the results of `write` that are left.
`utils.c`. -/
def correctWrite (data : Bytes) : List WriteResult → Bytes × WriteReturn × List WriteResult
  | [] => (data, .whole, [])
  | w :: ws =>
    if data = [] then ([], .whole, w :: ws)
    else
      match w with
      | .again => correctWrite data ws
      | .failed => ([], .error, ws)
      | .wrote 0 => ([], .zero, ws)
      | .wrote (n + 1) =>
        let (written, ret, ws) := correctWrite (data.drop (n + 1)) ws
        (data.take (n + 1) ++ written, ret, ws)

def CLIB_CUTTHROUGH_THRESH : ℕ := 2 ^ 20 + 2 ^ 19

/-- The data received and the results of `read` that are left, with `data` received before; `none`
where an error is returned.
`icp.c`. -/
def doHttpReceive (data : Bytes) : List ReadResult → Option (Bytes × List ReadResult)
  | [] => some (data, [])
  | r :: reads =>
    if data.length > CLIB_CUTTHROUGH_THRESH then some (data, r :: reads)
    else
      match r with
      | .data c bytes => doHttpReceive (data ++ c :: bytes) reads
      | .again => doHttpReceive data reads
      | .failed => none

/-- The requests to one cache after the other; `none` if no one is left.
`clib.c`. -/
def clibLowlevelOp (caches : List (List ReadResult)) : Option (Bytes × List ReadResult) :=
  caches.findSome? (doHttpReceive [])

/-- The loop of `tunnel`: what is written to the client from the block `block` on, which is in the
buffer `outptr`, and whether a `write` is tried after a `read` has failed.  After a `read` that
fails the length is -1, which is `none` here: a string is written, and since -1 is also what a
failed `write` returns, it is then that the loop goes on.  `none` where a string in the buffer does
not end there.
`comm_http.c` `tunnel`. -/
def relay (reads : List ReadResult) (outptr : Bytes) (block : Option Bytes)
    (ws : List WriteResult) : Option (Bytes × Bool) :=
  let text := block.getD (cString outptr)
  let (written, ret, ws) := correctWrite text ws
  let late := block.isNone && !text.isEmpty
  if block = none ∧ 0 ∉ outptr then none
  else if ret = if block = none then .error else .whole then
    match reads with
    | [] => some (written, late)
    | .data c bytes :: reads =>
      (relay reads (c :: bytes ++ outptr.drop (bytes.length + 1)) (some (c :: bytes)) ws).map
        fun p => (written ++ p.1, late || p.2)
    | _ :: reads => (relay reads outptr none ws).map fun p => (written ++ p.1, late || p.2)
  else some (written, late)

/-- What `tunnel` writes to the client, as in `relay`; `tail` is what the buffer holds behind the
first block.
`comm_http.c`. -/
def tunnel (caches : List (List ReadResult)) (tail : Bytes) (ws : List WriteResult) :
    Option (Bytes × Bool) :=
  match clibLowlevelOp caches with
  | none => some ([], false)
  | some (block, reads) => relay reads (block ++ tail) (some block) ws

/-! ## What the client gets -/

/-- The data that is read before a `read` fails. -/
def dataOf : List ReadResult → Bytes
  | .data c bytes :: reads => c :: bytes ++ dataOf reads
  | _ => []

/-- The answer that is relayed. -/
def answer (caches : List (List ReadResult)) : Bytes :=
  ((clibLowlevelOp caches).map fun (block, reads) => block ++ dataOf reads).getD []

def IsData : ReadResult → Prop
  | .data _ _ => True
  | _ => False

def Succeeds (w : WriteResult) : Prop := w ≠ .failed ∧ w ≠ .wrote 0

/-- **The relay as it should be**: the client gets a prefix of the answer, all of it if nothing
fails, and nothing is written after a `read` has failed. -/
def RelayedRight (caches : List (List ReadResult)) (tail : Bytes) (ws : List WriteResult) : Prop :=
  ∃ written, tunnel caches tail ws = some (written, false) ∧ written <+: answer caches ∧
    ((∀ p, clibLowlevelOp caches = some p → ∀ r ∈ p.2, IsData r) → (∀ w ∈ ws, Succeeds w) →
      written = answer caches)

/-- No `read` fails while the client takes all; or if one does, the buffer begins with a NUL. -/
def Clean : List ReadResult → Bytes → Bytes → List WriteResult → Prop
  | [], _, _, _ => True
  | .data c bytes :: reads, outptr, block, ws =>
    (correctWrite block ws).2.1 = .whole →
      Clean reads (c :: bytes ++ outptr.drop (bytes.length + 1)) (c :: bytes)
        (correctWrite block ws).2.2
  | _ :: _, outptr, block, ws => (correctWrite block ws).2.1 = .whole → outptr.head? = some 0

variable {block outptr written : Bytes} {ws : List WriteResult} {reads : List ReadResult}

/-- **Writing** writes a prefix, all if it succeeds, and it succeeds if every call does. -/
lemma correctWrite_spec (block : Bytes) (ws : List WriteResult) :
    (correctWrite block ws).1 <+: block ∧
      ((correctWrite block ws).2.1 = .whole → (correctWrite block ws).1 = block) ∧
      ((∀ w ∈ ws, Succeeds w) → (correctWrite block ws).2.1 = .whole ∧
        ∀ w ∈ (correctWrite block ws).2.2, Succeeds w) := by
  induction ws generalizing block with
  | nil => exact ⟨prefix_rfl, fun _ => rfl, fun _ => ⟨rfl, by simp [correctWrite]⟩⟩
  | cons w ws ih =>
    unfold correctWrite
    split_ifs with hn
    · exact ⟨ nil_prefix, fun _ => hn.symm, fun h => ⟨rfl, h⟩⟩
    · rw [forall_mem_cons]
      cases w with
      | again =>
        obtain ⟨hp, ha, ho⟩ := ih block
        exact ⟨hp, ha, fun h => ho h.2⟩
      | failed => exact ⟨ nil_prefix, by simp, fun h => absurd rfl h.1.1⟩
      | wrote n =>
        cases n with
        | zero => exact ⟨ nil_prefix, by simp, fun h => absurd rfl h.1.2⟩
        | succ n =>
          obtain ⟨hp, ha, ho⟩ := ih (block.drop (n + 1))
          refine ⟨?_, fun h => ?_, fun h => ho h.2⟩
          · have hb := (prefix_append_right_inj (block.take (n + 1))).mpr hp
            rwa [take_append_drop] at hb
          · dsimp only
            rw [ha h, take_append_drop]

/-- After a `read` that fails, nothing is written exactly if the string is empty. -/
lemma relay_string :
    relay reads outptr none ws = some (written, false) ↔ outptr.head? = some 0 ∧ written = [] := by
  rw [relay.eq_def]
  cases outptr with
  | nil => simp
  | cons c outptr =>
    by_cases hc : c = 0
    · have hw : correctWrite [] ws = ([], .whole, ws) := by cases ws <;> rfl
      simp [hc, cString, hw, eq_comm]
    · have hs : cString (c :: outptr) = c :: cString outptr := by simp [cString, hc]
      simp only [getD_none, hs, isNone_none, isEmpty_cons, head?_cons,
        Option.some.injEq, hc, false_and, iff_false]
      split_ifs
      · simp
      · split <;> simp
      · simp

/-- **The loop**: the relay is right exactly if the run is clean. -/
lemma relay_right_iff :
    (∃ written, relay reads outptr (some block) ws = some (written, false) ∧
      written <+: block ++ dataOf reads) ↔ Clean reads outptr block ws := by
  induction reads generalizing outptr block ws with
  | nil =>
    have hp := (correctWrite_spec block ws).1
    exact iff_of_true ⟨_, by simp [relay], hp.trans (prefix_append _ _)⟩ trivial
  | cons r reads ih =>
    obtain ⟨hp, ha, -⟩ := correctWrite_spec block ws
    by_cases hok : (correctWrite block ws).2.1 = .whole
    · rw [relay.eq_def]
      simp only [getD_some, hok, ha hok, reduceCtorEq, false_and, if_false, if_true,
        isNone_some, Bool.false_and, Bool.false_or]
      cases r with
      | data c bytes =>
        simp only [Clean, hok, forall_const, dataOf, ← ih, map_eq_some_iff]
        constructor
        · rintro ⟨_, ⟨⟨rest, _⟩, hr, heq⟩, hpre⟩
          cases heq
          exact ⟨rest, hr, (prefix_append_right_inj block).mp hpre⟩
        · rintro ⟨rest, hr, hpre⟩
          exact ⟨_, ⟨_, hr, rfl⟩, (prefix_append_right_inj block).mpr hpre⟩
      | again | failed =>
        simp only [Clean, hok, forall_const, dataOf, append_nil, map_eq_some_iff]
        constructor
        · rintro ⟨_, ⟨⟨rest, _⟩, hr, heq⟩, -⟩
          cases heq
          exact (relay_string.mp hr).1
        · intro hh
          exact ⟨block, ⟨([], false), relay_string.mpr ⟨hh, rfl⟩, by simp⟩, prefix_rfl⟩
    · have hrelay : relay (r :: reads) outptr (some block) ws =
          some ((correctWrite block ws).1, false) := by
        rw [relay.eq_def]
        simp [hok]
      refine iff_of_true ⟨_, hrelay, hp.trans (prefix_append _ _)⟩ ?_
      cases r <;> exact fun h => absurd h hok

lemma relay_whole (hr : ∀ r ∈ reads, IsData r) (hw : ∀ w ∈ ws, Succeeds w) :
    relay reads outptr (some block) ws = some (block ++ dataOf reads, false) := by
  induction reads generalizing outptr block ws with
  | nil =>
    obtain ⟨-, ha, ho⟩ := correctWrite_spec block ws
    simp [relay, dataOf, ha (ho hw).1]
  | cons r reads ih =>
    rw [forall_mem_cons] at hr
    obtain ⟨-, ha, ho⟩ := correctWrite_spec block ws
    obtain ⟨hok, hw'⟩ := ho hw
    cases r with
    | data c bytes =>
      rw [relay.eq_def]
      simp [hok, ha hok, ih hr.2 hw', dataOf]
    | again | failed => exact absurd hr.1 id

/-- **When the tunnel relays right.** -/
theorem cut_through_iff (caches : List (List ReadResult)) (tail : Bytes) (ws : List WriteResult) :
    RelayedRight caches tail ws ↔ ∀ block reads, clibLowlevelOp caches = some (block, reads) →
      Clean reads (block ++ tail) block ws := by
  unfold RelayedRight tunnel answer
  cases hop : clibLowlevelOp caches with
  | none => exact iff_of_true ⟨[], rfl, nil_prefix, fun _ _ => rfl⟩ nofun
  | some p =>
    obtain ⟨block, reads⟩ := p
    simp only [Option.some.injEq, Prod.mk.injEq, and_imp, forall_eq', map_some,
      getD_some, forall_apply_eq_imp_iff]
    rw [← relay_right_iff]
    constructor
    · rintro ⟨written, hw, hp, -⟩
      exact ⟨written, hw, hp⟩
    · rintro ⟨written, hw, hp⟩
      refine ⟨written, hw, hp, fun hr hs => ?_⟩
      cases hw.symm.trans (relay_whole hr hs)
      rfl

lemma tunnel_of_failed {c : UInt8} {bytes : Bytes} (hl : CLIB_CUTTHROUGH_THRESH ≤ bytes.length)
    (hn : (0 : UInt8) ∉ c :: bytes) :
    tunnel [[.data c bytes, .failed]] [0] [] = some (c :: bytes ++ c :: bytes, true) ∧
      ¬ c :: bytes ++ c :: bytes <+: answer [[.data c bytes, .failed]] := by
  have hop : clibLowlevelOp [[.data c bytes, .failed]] = some (c :: bytes, [.failed]) := by
    simp [clibLowlevelOp, doHttpReceive, hl]
  refine ⟨?_, fun h => ?_⟩
  · have hs := cString_append_nul hn []
    simp only [tunnel, hop, relay, correctWrite, getD_some, getD_none, hs]
    simp
  · rw [answer, hop] at h
    have hlen := h.length_le
    simp [dataOf] at hlen

/-- **A `read` that fails**: the client gets the block before it again. -/
theorem block_written_twice :
    ∃ bytes, tunnel [[.data 65 bytes, .failed]] [0] [] = some (65 :: bytes ++ 65 :: bytes, true) ∧
      ¬ 65 :: bytes ++ 65 :: bytes <+: answer [[.data 65 bytes, .failed]] := by
  refine ⟨List.replicate CLIB_CUTTHROUGH_THRESH 65,
    tunnel_of_failed length_replicate.ge fun h => ?_⟩
  rcases mem_cons.mp h with h | h
  · cases h
  · cases eq_of_mem_replicate h

end Glomop.ClientLib.Tunnel
