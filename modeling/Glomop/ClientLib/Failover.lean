import Glomop.ClientLib.Part
import Glomop.Lib.Run

/-!
# Failover between cache partitions

The client library sends a request to one of the cache partitions of a list.  If the attempt fails
it hands the partition to `Part_Delete` and begins anew, as long as the list is not empty.  But
`Part_HandleFailure` asks the socket for its *own* address and sets the length to 0, so that none is
deleted (`failedSend_repeats`).  One step of the machine is one attempt.  Source: `part.c`.
-/

namespace Glomop.ClientLib.Failover

open Lib List
open ClientLib.Part (Digest getPartNumber digestOf)

/-! ## Partitions -/

/-- `part.h` `part_element`: a `sockaddr_in` and its length. -/
structure Partition where
  addrlen : ℕ
  addr : UInt32
  port : UInt16
deriving DecidableEq

def partCompare (el1 el2 : Partition) : ℤ :=
  if el1.addrlen > el2.addrlen then 1
  else if el1.addrlen < el2.addrlen then -1
  else if el1.addr > el2.addr then 1
  else if el1.addr < el2.addr then -1
  else if el1.port > el2.port then 1
  else if el1.port < el2.port then -1
  else 0

lemma partCompare_eq_zero_iff {el1 el2 : Partition} : partCompare el1 el2 = 0 ↔ el1 = el2 := by
  constructor
  · intro h
    unfold partCompare at h
    split_ifs at h with h1 h2 h3 h4 h5 h6
    all_goals try exact absurd h (by decide)
    have hlen : el1.addrlen = el2.addrlen := by omega
    have ha : el1.addr = el2.addr := UInt32.le_antisymm (UInt32.not_lt.mp h3) (UInt32.not_lt.mp h4)
    have hp : el1.port = el2.port := UInt16.le_antisymm (UInt16.not_lt.mp h5) (UInt16.not_lt.mp h6)
    obtain ⟨len, addr, port⟩ := el1
    subst hlen ha hp
    rfl
  · rintro rfl
    simp [partCompare]

/-- The list of partitions and the global count of them.  `partition_list`, `num_partitions`. -/
structure Partitions where
  partitionList : List Partition
  numPartitions : ℕ
  count : numPartitions = partitionList.length

/-- `Part_Delete`, `utils.c` `ll_del`. -/
def Partitions.partDelete (ps : Partitions) (el : Partition) : Partitions where
  partitionList := ps.partitionList.eraseP fun p => partCompare el p = 0
  numPartitions :=
    if ps.partitionList.any fun p => partCompare el p = 0 then ps.numPartitions - 1
    else ps.numPartitions
  count := by
    have hcount := ps.count
    split_ifs with h
    · rw [length_eraseP, h, if_pos rfl, hcount]
    · rw [length_eraseP, if_neg h, hcount]

lemma Partitions.partDelete_list (ps : Partitions) (el : Partition) :
    (ps.partDelete el).partitionList = ps.partitionList.erase el := by
  have hp : (fun p => decide (partCompare el p = 0)) = fun p => p == el := by
    funext p
    rw [Bool.eq_iff_iff, decide_eq_true_iff, partCompare_eq_zero_iff, beq_iff_eq]
    exact eq_comm
  show ps.partitionList.eraseP (fun p => decide (partCompare el p = 0)) = _
  rw [hp, erase_eq_eraseP']

/-! ## The choice of a partition -/

lemma getPartNumber_lt (md5 : Bytes → Digest) {n : ℕ} (hn : n ≠ 0) (url : Bytes) :
    (getPartNumber md5 n url).toNat < n := by
  have hlt := Int.tmod_lt_of_pos (Part.bits (Part.firstWord (md5 (Part.hashed url)))).toInt
    (by omega : (0 : ℤ) < n)
  rw [getPartNumber, if_neg (by omega)]
  omega

/-- `clib.h` `clib_response`; the codes that the functions below return. -/
inductive Response
  | ok | cacheHit | cacheMiss | badUrl | serverInternal | serverDown | serverTimeout | noFd
  | pthreadFail | socketopFail | cutthrough
deriving DecidableEq

def Response.isError : Response → Bool
  | .ok | .cacheHit | .cacheMiss | .cutthrough => false
  | _ => true

/-- A call.  For `Clib_Lowlevel_Op`, `url` is what `get_url_from_data` finds in the data. -/
inductive Request
  | query (url : Bytes)
  | fetch (url : Bytes)
  | post (url : Bytes)
  | lowlevelOp (url : Option Bytes)
  | push (url : Bytes)
deriving DecidableEq

/-- One round of a query: the datagram is not sent, `select` fails, times out or has an answer. -/
inductive UdpTry
  | sendFails | selectFails | timeout | ready
deriving DecidableEq

/-- The answer of `do_http_receive`: an error, -2 (`cutthrough`), or data with or without a header
and contents. -/
inductive Received
  | error | cutthrough | data (parsed : Bool)
deriving DecidableEq

inductive Opcode
  | hit | miss | invalid | other
deriving DecidableEq

/-- What the system calls of one attempt answer.  `sockname` is what `getsockname` gives. -/
structure Answers where
  socket : Bool
  bind : Bool
  connect : Bool
  send : Bool
  receive : Received
  udp : ℕ → UdpTry
  opcode : Opcode
  sockname : Option (UInt32 × UInt16)

/-- How an attempt ends: the call returns; or it failed, `handed` was handed to `Part_Delete`, and
the call returns `ifEmpty` if there is no partition left. -/
inductive Ending
  | returned (r : Response)
  | failed (handed : Option Partition) (ifEmpty : Response)
deriving DecidableEq

/-- The partition that is deleted after a failure on a connected socket: the socket's own address,
with the length 0.  `Part_HandleFailure`. -/
def handleFailure (answers : Answers) : Option Partition :=
  answers.sockname.map fun name => ⟨0, name.1, name.2⟩

/-- `none` if the socket is connected.  `Part_GetTCPsock`, from the socket on. -/
def getTCPsock (answers : Answers) (tried : Partition) : Option Ending :=
  if !answers.socket then some (.returned .noFd)
  else if !answers.bind then some (.returned .noFd)
  else if !answers.connect then some (.failed (some { tried with port := 3128 }) .noFd)
  else none

/-- `Part_GetUDPsock`, from the socket on. -/
def getUDPsock (answers : Answers) : Option Ending :=
  if answers.socket && answers.bind && answers.connect then none else some (.returned .noFd)

/-- Send and receive; `takeApart` is the outcome for an answer. -/
def exchangeWith (takeApart : Bool → Response) (answers : Answers) : Ending :=
  if !answers.send then .failed (handleFailure answers) .serverDown
  else
    match answers.receive with
    | .cutthrough => .returned .cutthrough
    | .error => .failed (handleFailure answers) .serverDown
    | .data parsed => .returned (takeApart parsed)

/-- `clib.c` `Clib_Fetch`, `Clib_Post`. -/
def exchange (answers : Answers) : Ending :=
  exchangeWith (fun parsed => if parsed then .ok else .serverDown) answers

/-- `clib.c` `Clib_Lowlevel_Op`: the answer is not taken apart. -/
def exchangeRaw (answers : Answers) : Ending := exchangeWith (fun _ => .ok) answers

/-- `clib.c` `Clib_Push`. -/
def put (answers : Answers) : Ending :=
  if !answers.send then .failed (handleFailure answers) .serverDown else .returned .ok

/-- The rounds of a query from round `tries` on, `left` of them: `none` if there is an answer,
otherwise the error to return when no partition is left.  `clib.c` `Clib_Query`. -/
def queryTries (udp : ℕ → UdpTry) (tries : ℕ) : ℕ → Option Response
  | 0 => some .serverTimeout
  | left + 1 =>
    match udp tries with
    | .sendFails => some .socketopFail
    | .selectFails => some .socketopFail
    | .ready => none
    | .timeout => queryTries udp (tries + 1) left

/-- `clib.c` `Clib_Query`. -/
def queryAnswer : Opcode → Response
  | .hit => .cacheHit
  | .miss => .cacheMiss
  | .invalid => .badUrl
  | .other => .serverInternal

def attempt (udpRetries : ℤ) (tried : Partition) (answers : Answers) : Request → Ending
  | .query _ =>
    (getUDPsock answers).getD
      (match queryTries answers.udp 0 udpRetries.toNat with
      | some r => .failed (handleFailure answers) r
      | none => .returned (queryAnswer answers.opcode))
  | .fetch _ | .post _ => (getTCPsock answers tried).getD (exchange answers)
  | .lowlevelOp _ => (getTCPsock answers tried).getD (exchangeRaw answers)
  | .push _ => (getTCPsock answers tried).getD (put answers)

/-! ## Calls -/

/-- Where a call is: at an attempt on a partition, returned, or it has read through `NULL`. -/
inductive Status
  | trying (tried : Partition)
  | returned (r : Response)
  | crashed
deriving DecidableEq

/-- A call.  `failed` lists the partitions on which an attempt failed. -/
structure State where
  request : Request
  partitions : Partitions
  attempts : ℕ
  failed : List Partition
  status : Status

section Machine

variable (md5 : Bytes → Digest) (udpRetries : ℤ)

/-- `Part_GetTCPsock`, up to the socket. -/
def chooseTCP (ps : Partitions) (url : Bytes) : Status :=
  if getPartNumber md5 ps.numPartitions url = -1 then .returned .pthreadFail
  else
    match ps.partitionList[(getPartNumber md5 ps.numPartitions url).toNat]? with
    | none => .crashed
    | some p => .trying p

/-- `Part_GetUDPsock`, up to the socket: the number is not looked at. -/
def chooseUDP (ps : Partitions) (url : Bytes) : Status :=
  match ps.partitionList[(getPartNumber md5 ps.numPartitions url).toNat]? with
  | none => .crashed
  | some p => .trying p

/-- The begin of a call, and of the call it makes of itself after a failure. -/
def enter (ps : Partitions) : Request → Status
  | .query url => chooseUDP md5 ps url
  | .fetch url | .post url | .lowlevelOp (some url) | .push url => chooseTCP md5 ps url
  | .lowlevelOp none => .returned .serverDown

def State.start (request : Request) (ps : Partitions) : State :=
  ⟨request, ps, 0, [], enter md5 ps request⟩

def State.settle (s : State) (tried : Partition) : Ending → State
  | .returned r => { s with attempts := s.attempts + 1, status := .returned r }
  | .failed handed ifEmpty =>
    let ps := handed.elim s.partitions s.partitions.partDelete
    { s with
      partitions := ps
      attempts := s.attempts + 1
      failed := s.failed ++ [tried]
      status := if ps.numPartitions = 0 then .returned ifEmpty else enter md5 ps s.request }

def next (s : State) (answers : Answers) : Option State :=
  match s.status with
  | .trying tried => some (s.settle md5 tried (attempt udpRetries tried answers s.request))
  | _ => none

def step (s : State) (answers : Answers) (s' : State) : Prop :=
  next md5 udpRetries s answers = some s'

/-- The request is not sent, or there is no answer to it. -/
def Answers.lost (answers : Answers) : Request → Bool
  | .query _ => (queryTries answers.udp 0 udpRetries.toNat).isSome
  | .push _ => !answers.send
  | _ => !answers.send || answers.receive = .error

/-- If the connection for a request cannot be made, the partition's port is 3128.  If it is lost
later, the partition has the length 0 and the address of the client's socket. -/
def ok (s : State) (answers : Answers) : Prop :=
  match s.status with
  | .trying tried => answers.socket = true → answers.bind = true →
    if answers.connect = true then answers.lost udpRetries s.request = true →
      tried.addrlen = 0 ∧ answers.sockname = some (tried.addr, tried.port)
    else match s.request with
      | .query _ => True
      | _ => tried.port = 3128
  | _ => True

instance (s : State) (answers : Answers) : Decidable (ok udpRetries s answers) := by
  unfold ok
  split
  · cases s.request <;> infer_instance
  · infer_instance

section Runs

variable {md5 udpRetries} {s s' : State} {ps : Partitions} {answers : Answers} {r : Request}

lemma step_inv (h : step md5 udpRetries s answers s') : ∃ tried, s.status = .trying tried ∧
    s' = s.settle md5 tried (attempt udpRetries tried answers s.request) := by
  unfold step next at h
  split at h
  · exact ⟨_, ‹_›, (Option.some.inj h).symm⟩
  · exact nomatch h

inductive Entered (ps : Partitions) : Status → Prop
  | trying {p : Partition} (hp : p ∈ ps.partitionList) : Entered ps (.trying p)
  | returned {e : Response} (he : e.isError = true) : Entered ps (.returned e)

lemma exists_chosen (md5 : Bytes → Digest) (hps : ps.partitionList ≠ []) (url : Bytes) :
    ∃ p ∈ ps.partitionList,
      ps.partitionList[(getPartNumber md5 ps.numPartitions url).toNat]? = some p := by
  have hn : ps.numPartitions ≠ 0 := by
    rw [ps.count]
    exact fun h => hps (length_eq_zero_iff.mp h)
  have hlt := getPartNumber_lt md5 hn url
  rw [ps.count] at hlt
  rw [ps.count, getElem?_eq_getElem hlt]
  exact ⟨_, getElem_mem hlt, rfl⟩

lemma entered_chooseTCP (md5 : Bytes → Digest) (ps : Partitions) (url : Bytes) :
    Entered ps (chooseTCP md5 ps url) := by
  by_cases hps : ps.partitionList = []
  · have hn : getPartNumber md5 ps.numPartitions url = -1 := by
      rw [getPartNumber, if_pos (by rw [ps.count, hps]; rfl)]
    rw [chooseTCP, if_pos hn]
    exact .returned rfl
  · obtain ⟨p, hp, hc⟩ := exists_chosen md5 hps url
    unfold chooseTCP
    split_ifs with hn
    · exact .returned rfl
    · rw [hc]
      exact .trying hp

lemma entered_chooseUDP (md5 : Bytes → Digest) (hps : ps.partitionList ≠ []) (url : Bytes) :
    Entered ps (chooseUDP md5 ps url) := by
  obtain ⟨p, hp, hc⟩ := exists_chosen md5 hps url
  rw [chooseUDP, hc]
  exact .trying hp

lemma entered_enter (md5 : Bytes → Digest) (r : Request)
    (hq : ∀ url, r = .query url → ps.partitionList ≠ []) : Entered ps (enter md5 ps r) := by
  cases r with
  | query url => exact entered_chooseUDP md5 (hq url rfl) url
  | fetch url | post url | push url => exact entered_chooseTCP md5 ps url
  | lowlevelOp url =>
    cases url with
    | none => exact .returned rfl
    | some url => exact entered_chooseTCP md5 ps url

lemma isError_of_queryTries {udp : ℕ → UdpTry} {tries left : ℕ} {e : Response}
    (h : queryTries udp tries left = some e) : e.isError = true := by
  induction left generalizing tries with
  | zero =>
    cases h
    rfl
  | succ left ih =>
    unfold queryTries at h
    cases hu : udp tries with
    | sendFails | selectFails =>
      obtain rfl : Response.socketopFail = e := by simpa [hu] using h
      rfl
    | timeout =>
      rw [hu] at h
      exact ih h
    | ready => simp [hu] at h

/-- The partitions of the list at the begin of the call are those that failed and those that are
left; a call that is still trying has one left. -/
structure Going (l : List Partition) (s : State) : Prop where
  perm : (s.failed ++ s.partitions.partitionList).Perm l
  trying : ∀ tried, s.status = .trying tried →
    tried ∈ s.partitions.partitionList ∧ s.attempts = s.failed.length
  attempts : s.attempts ≤ s.failed.length + 1
  running : s.status ≠ .crashed
  empty : s.partitions.partitionList = [] →
    ∃ e, s.status = .returned e ∧ e.isError = true

lemma going_of_entered {l : List Partition} (hpe : (s.failed ++ s.partitions.partitionList).Perm l)
    (ha : s.attempts = s.failed.length) (hen : Entered s.partitions s.status) : Going l s := by
  obtain ⟨request, partitions, attempts, failed, status⟩ := s
  refine ⟨hpe, ?_, ha.le.trans (Nat.le_succ _), ?_, ?_⟩
  · rintro tried rfl
    cases hen with
    | trying hp => exact ⟨hp, ha⟩
  · rintro rfl
    exact nomatch hen
  · intro hem
    cases hen with
    | trying hp => exact absurd hp (hem ▸ not_mem_nil)
    | returned he => exact ⟨_, rfl, he⟩

/-- A failed attempt hands over the partition that was tried, and has an error to return. -/
lemma failed_of_ok {tried : Partition} (hs : s.status = .trying tried)
    (hok : ok udpRetries s answers) {handed : Option Partition} {e : Response}
    (h : attempt udpRetries tried answers s.request = .failed handed e) :
    handed = some tried ∧ e.isError = true := by
  obtain ⟨request, _, _, _, _⟩ := s
  subst hs
  obtain ⟨addrlen, addr, port⟩ := tried
  have hq {e : Response} := @isError_of_queryTries answers.udp 0 udpRetries.toNat e
  -- without a connection, the port decides; with one, the name of the socket
  cases request with
  | query url => grind [ok, Answers.lost, attempt, getUDPsock, handleFailure]
  | fetch url | post url =>
    grind [ok, Answers.lost, attempt, getTCPsock, exchange, exchangeWith, handleFailure,
      Response.isError]
  | lowlevelOp url =>
    grind [ok, Answers.lost, attempt, getTCPsock, exchangeRaw, exchangeWith, handleFailure,
      Response.isError]
  | push url => grind [ok, Answers.lost, attempt, getTCPsock, put, handleFailure, Response.isError]

lemma Going.step {l : List Partition} (h : Going l s)
    (hst : Guarded (ok udpRetries) (step md5 udpRetries) s answers s') : Going l s' := by
  obtain ⟨hok, hst⟩ := hst
  obtain ⟨tried, hs, rfl⟩ := step_inv hst
  obtain ⟨hmem, ha⟩ := h.trying tried hs
  cases hed : attempt udpRetries tried answers s.request with
  | returned e =>
    refine ⟨h.perm, nofun, Nat.succ_le_succ ha.le, nofun, ?_⟩
    intro he
    exact absurd hmem (he ▸ not_mem_nil)
  | failed handed e =>
    obtain ⟨rfl, her⟩ := failed_of_ok hs hok hed
    -- what failed is taken off the list and recorded
    have hpe : (s.failed ++ [tried] ++ (s.partitions.partDelete tried).partitionList).Perm l := by
      rw [Partitions.partDelete_list, append_assoc]
      exact ((perm_cons_erase hmem).symm.append_left _).trans h.perm
    have hl : s.attempts + 1 = (s.failed ++ [tried]).length := by simp [ha]
    by_cases hn : (s.partitions.partDelete tried).numPartitions = 0
    · refine ⟨hpe, ?_, hl.le.trans (Nat.le_succ _), ?_, fun _ => ⟨e, ?_, her⟩⟩
      · intro p hp
        simp [State.settle, hn] at hp
      all_goals simp [State.settle, hn]
    · refine going_of_entered hpe hl ?_
      have hne : (s.partitions.partDelete tried).partitionList ≠ [] := by
        intro he
        rw [(s.partitions.partDelete tried).count, he] at hn
        exact hn rfl
      have hen := entered_enter md5 s.request fun _ _ => hne
      simpa [State.settle, hn] using hen

lemma attempts_of_run {outcomes : List Answers} {ok : State → Answers → Prop}
    (hrun : Run (Guarded ok (step md5 udpRetries)) s outcomes s') :
    s'.attempts = s.attempts + outcomes.length := by
  induction hrun with
  | nil s => rfl
  | cons h1 _ ih =>
    obtain ⟨tried, -, rfl⟩ := step_inv h1.2
    rw [ih, length_cons]
    cases attempt udpRetries tried _ _ <;> simp only [State.settle] <;> omega

/-- **Failover**: in every run of a call whose attempts are `ok`, there are at most as many attempts
as partitions, and one more; a call that has made them all has returned; every failed attempt has
taken its partition off the list; and if no partition is left the call has returned an error,
without reading through `NULL`. -/
theorem failover_of_run {outcomes : List Answers}
    (hquery : ∀ url, r = .query url → ps.partitionList ≠ [])
    (hrun : Run (Guarded (ok udpRetries) (step md5 udpRetries)) (State.start md5 r ps) outcomes s) :
    s.attempts = outcomes.length ∧ s.attempts ≤ ps.partitionList.length + 1 ∧
      (outcomes.length = ps.partitionList.length + 1 → ∃ e, s.status = .returned e) ∧
      (s.failed ++ s.partitions.partitionList).Perm ps.partitionList ∧
      s.status ≠ .crashed ∧
      (s.partitions.partitionList = [] → ∃ e, s.status = .returned e ∧ e.isError = true) := by
  have hst : Going ps.partitionList (State.start md5 r ps) := by
    refine going_of_entered ?_ rfl (entered_enter md5 r hquery)
    exact Perm.refl _
  have hg : Going ps.partitionList s := hrun.invariant (fun _ _ _ h hsp => h.step hsp) hst
  have ha : s.attempts = outcomes.length := by
    rw [attempts_of_run hrun]
    exact Nat.zero_add _
  have hl := hg.perm.length_eq
  rw [length_append] at hl
  refine ⟨ha, ?_, ?_, hg.perm, hg.running, hg.empty⟩
  · have := hg.attempts
    omega
  · intro hal
    cases hs : s.status with
    | trying tried =>
      obtain ⟨-, ht⟩ := hg.trying tried hs
      omega
    | returned e => exact ⟨e, rfl⟩
    | crashed => exact absurd hs hg.running

end Runs

end Machine

/-! ## Three calls -/

/-- Two partitions as `Part_Initialize` makes them. -/
def twoPartitions : Partitions := ⟨[⟨16, 0x0a000001, 3128⟩, ⟨16, 0x0a000002, 3128⟩], 2, rfl⟩

def unreachable : Answers :=
  ⟨true, true, false, false, .error, fun _ => .timeout, .other, none⟩

/-- The host goes down after the connection is made; `getsockname` gives the client's address. -/
def lostAfterConnect : Answers :=
  ⟨true, true, true, false, .error, fun _ => .timeout, .other, some (0x0a0000ff, 40000)⟩

/-- A fetch with both hosts down. -/
theorem failover_of_run_unreachable : ∃ s : State,
    Run (Guarded (ok 3) (step (fun _ => digestOf 0 0 0 7) 3))
      (State.start (fun _ => digestOf 0 0 0 7) (.fetch [104]) twoPartitions)
      [unreachable, unreachable] s ∧ s.partitions.partitionList = [] ∧
      ∃ e, s.status = .returned e ∧ e.isError = true := by
  have hq : ∀ url, Request.fetch [104] = .query url → twoPartitions.partitionList ≠ [] := by
    rintro _ ⟨⟩
  exact (exists_guarded_of_decide (by decide +kernel)).imp fun s h =>
    ⟨h.1, h.2, (failover_of_run hq h.1).2.2.2.2.2 h.2⟩

/-- A host that goes down after the connection is made is tried again and again: after four failed
attempts on a list of two, both are still there.  And a query without partitions reads through
`NULL`. -/
theorem failedSend_repeats :
    (∃ s : State, Run (step (fun _ => digestOf 0 0 0 7) 3)
      (State.start (fun _ => digestOf 0 0 0 7) (.fetch [104]) twoPartitions)
      [lostAfterConnect, lostAfterConnect, lostAfterConnect, lostAfterConnect] s ∧
      s.attempts = 4 ∧ s.partitions.partitionList = twoPartitions.partitionList ∧
      ∃ tried, s.status = .trying tried) ∧
    (State.start (fun _ => digestOf 0 0 0 7) (.query [104]) ⟨[], 0, rfl⟩).status = .crashed := by
  exact ⟨(exists_run_of_decide (p := fun s : State => s.attempts = 4 ∧
    s.partitions.partitionList = twoPartitions.partitionList ∧
      s.status = .trying ⟨16, 0x0a000002, 3128⟩) (by decide +kernel)).imp fun s h =>
    ⟨h.1, h.2.1, h.2.2.1, _, h.2.2.2⟩, rfl⟩

end Glomop.ClientLib.Failover
