import Glomop.Dist.Rpc
import Glomop.Frontend.Headers

/-!
# The distillation pipeline

`proxy_dispatch` sends a document through one distiller after another.  Who is next is decided by
the header `X-Route`, whose first component is popped when the type is chosen; by `X-Static-Route`,
which is saved the first time a distiller returns one; and, without a static route, by the status.
A stage makes another attempt while the connection to the distiller breaks and tries are left.

The machine's events are the replies, one per attempt.  Since the type is chosen inside the retried
call, a retry pops the next component (`brokenStage_skips`).  Source: `dispatch.c`.
-/

namespace Glomop.Dispatch

open Lib Headers Rpc Option
open List hiding set

/-! ## Names -/

def xRoute : Bytes := [120, 45, 114, 111, 117, 116, 101]

/-- `X-Route`. -/
def xRouteHeader : Bytes := [88, 45, 82, 111, 117, 116, 101]

def xStaticRoute : Bytes :=
  [120, 45, 115, 116, 97, 116, 105, 99, 45, 114, 111, 117, 116, 101]

def contentType : Bytes := [99, 111, 110, 116, 101, 110, 116, 45, 116, 121, 112, 101]

/-- `Content-type`. -/
def contentTypeHeader : Bytes := [67, 111, 110, 116, 101, 110, 116, 45, 116, 121, 112, 101]

def contentLength : Bytes :=
  [99, 111, 110, 116, 101, 110, 116, 45, 108, 101, 110, 103, 116, 104]

/-- `Content-length`. -/
def contentLengthHeader : Bytes :=
  [67, 111, 110, 116, 101, 110, 116, 45, 108, 101, 110, 103, 116, 104]

def location : Bytes := [108, 111, 99, 97, 116, 105, 111, 110]

/-- `Location`. -/
def locationHeader : Bytes := [76, 111, 99, 97, 116, 105, 111, 110]

def textHtml : Bytes := [116, 101, 120, 116, 47, 104, 116, 109, 108]

abbrev MAXDISTILLER_TYPE_STRING : ℕ := 80

abbrev PERF_REQUEST_TTL : ℕ := 10

/-! ## Choosing the distiller -/

/-- What `proxy_dispatch` is called with and reads only: the URL, the user id among the arguments or
its default, the configured start of aggregator URLs, and the number of retries among the arguments
or its default. -/
structure Request where
  url : Bytes
  user : Bytes
  aggString : Bytes
  retries : ℤ

/-- What the array of a `C_DistillerType` holds; `none` if it holds no NUL. -/
abbrev DistillerType := Option Bytes

/-- `distinterface.h` `SET_DISTILLER_TYPE`. -/
def distillerType (str : Bytes) : DistillerType :=
  if str.length < MAXDISTILLER_TYPE_STRING then some str else none

/-- `none` where the type does not fit its buffer. -/
def setDistillerTypeGeneric (req : Request) (block : Bytes) : Option DistillerType :=
  let user := if req.user = [] then [] else req.user ++ [47]
  match getHeaderValue block contentType with
  | none => some (distillerType (user ++ textHtml))
  | some found =>
    let disttype := user ++ found.value
    if disttype.length ≤ MAX_ARG_STRING + MAX_MIMETYPE then some (distillerType disttype)
    else none

/-- The type in an aggregator URL: what stands in front of the next slash.  The loop counts to the
length of the whole URL, and so looks for the slash past its end; the type is copied to an array of
256 characters.  `set_distiller_type`. -/
def aggregatorType (req : Request) : Option DistillerType :=
  let tail := req.url.drop req.aggString.length
  let disttype := tail.takeWhile (· ≠ 47)
  let i := if 47 ∈ tail then disttype.length else req.url.length
  if (47 ∈ tail ∨ req.aggString.length ≤ 1) ∧ i < 256 then some (distillerType disttype)
  else none

def firstComponent (route : Bytes) : Bytes := route.takeWhile (· ≠ 59)

def otherComponents (route : Bytes) : Bytes := (route.dropWhile (· ≠ 59)).drop 1

/-- Choose the type, and take it off the route if there is one. -/
def setDistillerType (req : Request) (block : Bytes) : Option (DistillerType × Bytes) :=
  match getHeaderValue block xRoute with
  | none =>
    if startsWith req.aggString req.url then (aggregatorType req).map (·, block)
    else (setDistillerTypeGeneric req block).map (·, block)
  | some found =>
    if 59 ∈ found.value then
      (insertHeader block xRoute (otherComponents found.value) false).bind fun block =>
        (deleteHeader block xRoute).map (distillerType (firstComponent found.value), ·)
    else (deleteHeader block xRoute).map (distillerType found.value, ·)

/-- The MIME type that goes with the input of a distiller.  `do_distillation`. -/
def mimeTypeOf (block : Bytes) : Bytes :=
  match getHeaderValue block contentType with
  | none => textHtml
  | some found => found.value.take (MAX_MIMETYPE - 1)

def routeOf (block : Bytes) : Option Bytes := (getHeaderValue block xRoute).map (·.value)

/-! ## The stages -/

/-- The result of a call of `Distill`. -/
structure Reply where
  status : DistillerStatus
  metadata : Bytes
  data : Bytes

structure Stage where
  route : Option Bytes
  sent : List DistillerType
deriving DecidableEq

/-- The variables of `proxy_dispatch` when an attempt is about to be made, or when it has returned
`retcode`. -/
structure State where
  metadata : Bytes
  data : Bytes
  mimeType : Bytes
  staticRoute : Option Bytes
  staticRouteInitialized : Bool
  taskAge : ℕ
  triesLeft : ℤ
  trace : List Stage
  retcode : Option DistillerStatus
  initialized : staticRoute.isSome = true → staticRouteInitialized = true

def beginStage (req : Request) (s : State) : Option State :=
  (if getHeaderValue s.metadata location = none then
      insertHeader s.metadata locationHeader req.url false
    else some s.metadata).map fun block =>
      { s with
        metadata := block
        triesLeft := req.retries
        trace := ⟨routeOf block, []⟩ :: s.trace }

/-- The first stage, with the headers and the data of the server. -/
def start (req : Request) (svrHdrs svrData : Bytes) (taskAge : ℕ) : Option State :=
  beginStage req
    { metadata := svrHdrs
      data := svrData
      mimeType := []
      staticRoute := none
      staticRouteInitialized := false
      taskAge := taskAge
      triesLeft := 0
      trace := []
      retcode := none
      initialized := nofun }

def saveStaticRoute (s : State) (out : Bytes) : Option (Bytes × State) :=
  if s.staticRouteInitialized then some (out, s)
  else
    match getHeaderValue out xStaticRoute with
    | none => some (out, s)
    | some found =>
      if found.value = [] then some (out, s)
      else
        (deleteHeader out xStaticRoute).map
          (·, { s with
            staticRoute := some found.value
            staticRouteInitialized := true
            initialized := fun _ => rfl })

def complete (block which str value : Bytes) : Option Bytes :=
  if getHeaderValue block which = none then insertHeader block str value true else some block

def completeHeaders (mimeType data block : Bytes) : Option Bytes :=
  (complete block contentType contentTypeHeader mimeType).bind
    (complete · contentLength contentLengthHeader (decimal data.length))

def nextComponents (route : Bytes) : Option Bytes :=
  let rest := (route.dropWhile (· ≠ 59)).dropWhile fun c => c == 59 || c == 32
  if rest = [] then none else some rest

def nextStage (req : Request) (s : State) (block data : Bytes) : Option State :=
  let s := { s with metadata := block, data := data, taskAge := s.taskAge + 1 }
  if s.taskAge ≤ PERF_REQUEST_TTL then beginStage req s
  else some { s with retcode := some .distRedispatch }

def addRoute (s : State) (block : Bytes) : Option Bytes :=
  match s.staticRoute with
  | none => some block
  | some route => insertHeader block xRouteHeader route true

def State.advance (s : State) : State :=
  { s with
    staticRoute := s.staticRoute.bind nextComponents
    initialized := fun h => s.initialized (by cases hroute : s.staticRoute <;> simp_all) }

def redispatch (req : Request) (s : State) (out data : Bytes) : Option State :=
  (completeHeaders s.mimeType data out).bind fun block =>
    (addRoute s block).bind fun block => nextStage req s.advance block data

def conclude (req : Request) (s : State) (reply : Reply) : Option State :=
  if reply.status = .distOk ∨ reply.status = .distRedispatch then
    (saveStaticRoute s reply.metadata).bind fun (out, s) =>
      if s.staticRoute.isSome ∨
          (reply.status = .distRedispatch ∧ s.staticRouteInitialized = false) then
        redispatch req s out reply.data
      else some { s with retcode := some .distOk }
  else some { s with retcode := some reply.status }

/-- Record that an attempt of the newest stage was sent to a type. -/
def record (type : DistillerType) : List Stage → List Stage
  | [] => []
  | stage :: trace => { stage with sent := type :: stage.sent } :: trace

/-- The state when `Distill` is called. -/
def State.send (s : State) (type : DistillerType) (block : Bytes) : State :=
  { s with
    metadata := block
    mimeType := mimeTypeOf block
    trace := record type s.trace }

/-- One attempt: choose the type, send, and try again or go on.  `proxy_dispatch`,
`do_distillation`. -/
def attempt (req : Request) (s : State) (reply : Reply) : Option State :=
  if s.retcode = none then
    (setDistillerType req s.metadata).bind fun (type, block) =>
      let s := s.send type block
      if reply.status = .distConnectionBroken ∧ 0 < s.triesLeft then
        some { s with triesLeft := s.triesLeft - 1 }
      else conclude req s reply
  else none

def step (req : Request) (s : State) (reply : Reply) (s' : State) : Prop :=
  attempt req s reply = some s'

/-! ## What the functions change -/

section Frame

variable {req : Request} {s s' : State} {out block data : Bytes}

lemma beginStage_spec (h : beginStage req s = some s') :
    s'.trace = ⟨routeOf s'.metadata, []⟩ :: s.trace ∧ s'.retcode = s.retcode ∧
      s'.taskAge = s.taskAge ∧ s'.staticRoute = s.staticRoute ∧
      s'.staticRouteInitialized = s.staticRouteInitialized ∧ s'.triesLeft = req.retries := by
  obtain ⟨block, -, rfl⟩ := map_eq_some_iff.mp h
  exact ⟨rfl, rfl, rfl, rfl, rfl, rfl⟩

lemma nextStage_spec (hs : s.retcode = none) (h : nextStage req s block data = some s') :
    s'.taskAge = s.taskAge + 1 ∧ s'.staticRouteInitialized = s.staticRouteInitialized ∧
      ((s'.trace = ⟨routeOf s'.metadata, []⟩ :: s.trace ∧ s'.retcode = none ∧
          s'.taskAge ≤ PERF_REQUEST_TTL) ∨
        s'.trace = s.trace ∧ s'.retcode = some .distRedispatch) := by
  unfold nextStage at h
  dsimp only at h
  split_ifs at h with ha
  · obtain ⟨ht, hr, ha', -, hi, -⟩ := beginStage_spec h
    exact ⟨ha', hi, .inl ⟨ht, hr.trans hs, ha'.trans_le ha⟩⟩
  · cases h
    exact ⟨rfl, rfl, .inr ⟨rfl, rfl⟩⟩

lemma saveStaticRoute_spec {s1 : State} (h : saveStaticRoute s block = some (out, s1)) :
    s1.retcode = s.retcode ∧ s1.trace = s.trace ∧ s1.taskAge = s.taskAge := by
  unfold saveStaticRoute at h
  split_ifs at h
  · cases h
    exact ⟨rfl, rfl, rfl⟩
  · cases hf : getHeaderValue block xStaticRoute with
    | none =>
      rw [hf] at h
      cases h
      exact ⟨rfl, rfl, rfl⟩
    | some found =>
      simp only [hf] at h
      split_ifs at h
      · cases h
        exact ⟨rfl, rfl, rfl⟩
      · obtain ⟨_, -, hp⟩ := map_eq_some_iff.mp h
        cases hp
        exact ⟨rfl, rfl, rfl⟩

end Frame

/-- What an attempt can do.  It was sent to `type`, which left `block` of the headers. -/
inductive Outcome (s : State) (reply : Reply) (type : DistillerType) (block : Bytes) (s' : State) :
    Prop
  | retry (hstatus : reply.status = .distConnectionBroken) (htries : 0 < s.triesLeft)
      (heq : s' = { s.send type block with triesLeft := s.triesLeft - 1 })
  | next (hstatus : reply.status = .distOk ∨ reply.status = .distRedispatch)
      (htrace : s'.trace = ⟨routeOf s'.metadata, []⟩ :: record type s.trace)
      (hret : s'.retcode = none) (hage : s'.taskAge = s.taskAge + 1)
      (hlimit : s'.taskAge ≤ PERF_REQUEST_TTL)
      (hunrouted : s'.staticRouteInitialized = false → reply.status = .distRedispatch)
  | finish (htrace : s'.trace = record type s.trace) (hret : s'.retcode ≠ none)

variable {r after block route before : Bytes} {reply : Reply} {req : Request} {rs : List Bytes}
  {s : State} {type : DistillerType}

section Steps

variable {req : Request} {s s' : State} {reply : Reply}

lemma conclude_spec (hs : s.retcode = none)
    (h : conclude req (s.send type block) reply = some s') : Outcome s reply type block s' := by
  unfold conclude at h
  split_ifs at h with hst
  · obtain ⟨⟨out, s1⟩, hsa, h⟩ := bind_eq_some_iff.mp h
    obtain ⟨hre, ht, hag⟩ := saveStaticRoute_spec hsa
    dsimp only at h
    split_ifs at h with ha
    · obtain ⟨block', -, h⟩ := bind_eq_some_iff.mp h
      obtain ⟨block, -, h⟩ := bind_eq_some_iff.mp h
      obtain ⟨ha', hi, ⟨ht', hr', hl⟩ | ⟨ht', hr'⟩⟩ :=
        @nextStage_spec req s1.advance s' block reply.data (hre.trans hs) h
      · refine .next hst (ht'.trans (congrArg _ ht)) hr' ?_ hl fun hf => ?_
        · exact ha'.trans (congrArg (· + 1) hag)
        · rcases ha with hro | ⟨hr, -⟩
          · have htr := hf.symm.trans (hi.trans (s1.initialized hro))
            cases htr
          · exact hr
      · exact .finish (ht'.trans ht) (by simp [hr'])
    · cases h
      exact .finish ht (by simp)
  · cases h
    exact .finish rfl (by simp)

/-- **An attempt** is sent to the type chosen from the headers, and then does one of three
things. -/
theorem outcome_of_step (h : step req s reply s') :
    s.retcode = none ∧ ∃ type block, setDistillerType req s.metadata = some (type, block) ∧
      Outcome s reply type block s' := by
  unfold step attempt at h
  split_ifs at h with hre
  obtain ⟨⟨type, block⟩, ht, h⟩ := bind_eq_some_iff.mp h
  refine ⟨hre, type, block, ht, ?_⟩
  dsimp only at h
  split_ifs at h with hr
  · exact .retry hr.1 hr.2 (some.inj h).symm
  · exact conclude_spec hre h

end Steps

lemma record_length (type : DistillerType) (trace : List Stage) :
    (record type trace).length = trace.length := by
  cases trace <;> rfl

/-! ## The number of stages -/

structure Limited (s : State) : Prop where
  stages : s.trace.length ≤ PERF_REQUEST_TTL + 1
  age : s.retcode = none → s.trace.length ≤ s.taskAge + 1

lemma Limited.step {s' : State} (hs : Limited s) (h : step req s reply s') : Limited s' := by
  obtain ⟨hr, type, block, -, hout⟩ := outcome_of_step h
  have ha := hs.age hr
  have hl := record_length type s.trace
  cases hout with
  | retry _ _ heq =>
    subst heq
    exact ⟨hl.trans_le hs.stages, fun _ => hl.trans_le ha⟩
  | next _ ht _ ha' hli _ =>
    have hl' : s'.trace.length ≤ s'.taskAge + 1 := by
      rw [ht, length_cons, hl, ha']
      omega
    exact ⟨hl'.trans (by omega), fun _ => hl'⟩
  | finish ht hr' =>
    exact ⟨(congrArg length ht).trans_le (hl.trans_le hs.stages), fun hn => absurd hn hr'⟩

lemma limited_start {svrHdrs svrData : Bytes} {taskAge : ℕ}
    (h : start req svrHdrs svrData taskAge = some s) : Limited s := by
  obtain ⟨ht, -, -⟩ := beginStage_spec h
  have hl : s.trace.length = 1 := congrArg length ht
  exact ⟨by omega, fun _ => by omega⟩

/-! ## Following a route -/

lemma headUnique_xRoute : HeadUnique xRoute :=
  ⟨120, [45, 114, 111, 117, 116, 101], rfl, by decide +kernel⟩

lemma firstComponent_of_not_mem (h : (59 : UInt8) ∉ route) : firstComponent route = route := by
  refine takeWhile_eq_self_iff.mpr fun c hc => ?_
  have hne : c ≠ 59 := fun heq => h (heq ▸ hc)
  simpa using hne

lemma type_of_route {block' : Bytes} (hr : routeOf block = some route)
    (h : setDistillerType req block = some (type, block')) :
    type = distillerType (firstComponent route) := by
  obtain ⟨found, hf, rfl⟩ := map_eq_some_iff.mp hr
  simp only [setDistillerType, hf] at h
  split_ifs at h with hs
  · obtain ⟨_, -, h⟩ := bind_eq_some_iff.mp h
    obtain ⟨_, -, hp⟩ := map_eq_some_iff.mp h
    exact (Prod.mk.inj hp).1.symm
  · obtain ⟨_, -, hp⟩ := map_eq_some_iff.mp h
    rw [firstComponent_of_not_mem hs]
    exact (Prod.mk.inj hp).1.symm

lemma block_of_no_route {block' : Bytes} (hr : routeOf block = none)
    (h : setDistillerType req block = some (type, block')) : block' = block := by
  have hf : getHeaderValue block xRoute = none := map_eq_none_iff.mp hr
  simp only [setDistillerType, hf] at h
  split_ifs at h
  all_goals
    obtain ⟨_, -, hp⟩ := map_eq_some_iff.mp h
    exact (Prod.mk.inj hp).2.symm

section Carries

variable {block route before after : Bytes}

lemma routeOf_of_carries (h : CarriesAt block xRoute route before after) :
    routeOf block = some route := by
  obtain ⟨totallen, hf, -⟩ := h.getHeaderValue headUnique_xRoute
  rw [routeOf, hf]
  rfl

def popped (route before after : Bytes) : Bytes :=
  if 59 ∈ route then
    before ++ (after.take (after.length - 2) ++ headerText xRoute (otherComponents route))
  else before ++ after

/-- **Choosing the type** from a block that carries a route. -/
theorem setDistillerType_of_carries (req : Request)
    (h : CarriesAt block xRoute route before after) :
    setDistillerType req block =
      some (distillerType (firstComponent route), popped route before after) := by
  obtain ⟨totallen, hf, -⟩ := h.getHeaderValue headUnique_xRoute
  simp only [setDistillerType, hf]
  by_cases hs : 59 ∈ route
  · obtain ⟨block', ha, hc⟩ := h.appendHeader xRoute (otherComponents route)
    simp [if_pos hs, insertHeader, ha, hc.deleteHeader headUnique_xRoute, popped]
  · simp [if_neg hs, h.deleteHeader headUnique_xRoute, popped, firstComponent_of_not_mem hs]

end Carries

/-! ### Static routes -/

structure IsComponent (r : Bytes) : Prop where
  nonempty : r ≠ []
  fits : r.length < MAXDISTILLER_TYPE_STRING
  noSemicolon : (59 : UInt8) ∉ r
  noBlank : ∀ c ∈ r.head?, isBlank c = false

def routeText (rs : List Bytes) : Bytes := [59].intercalate rs

lemma routeText_cons (h : rs ≠ []) : routeText (r :: rs) = r ++ 59 :: routeText rs := by
  obtain ⟨r', rs, rfl⟩ := exists_cons_of_ne_nil h
  simp [routeText, intercalate]

lemma routeText_singleton (r : Bytes) : routeText [r] = r := by
  simp [routeText, intercalate]

lemma firstComponent_routeText (hr : IsComponent r) : firstComponent (routeText (r :: rs)) = r := by
  by_cases hrs : rs = []
  · rw [hrs, routeText_singleton, firstComponent_of_not_mem hr.noSemicolon]
  · rw [routeText_cons hrs]
    exact takeWhile_ne_append hr.noSemicolon _

lemma dropWhile_semicolon (hr : (59 : UInt8) ∉ r) (rest : Bytes) :
    (r ++ rest).dropWhile (· ≠ 59) = rest.dropWhile (· ≠ 59) := by
  refine dropWhile_append_of_pos fun c hc => ?_
  have hne : c ≠ 59 := fun heq => hr (heq ▸ hc)
  simpa using hne

lemma routeText_head (rs : List Bytes) (hr : IsComponent r) :
    ∃ c rest, routeText (r :: rs) = c :: rest ∧ c ≠ 59 ∧ isBlank c = false := by
  obtain ⟨c, tail, rfl⟩ := exists_cons_of_ne_nil hr.nonempty
  have hne : c ≠ 59 := fun heq => hr.noSemicolon (heq ▸ (.head _))
  have hb := hr.noBlank c rfl
  by_cases hrs : rs = []
  · exact ⟨c, tail, by rw [hrs, routeText_singleton], hne, hb⟩
  · exact ⟨c, tail ++ 59 :: routeText rs, by rw [routeText_cons hrs, cons_append], hne, hb⟩

lemma nextComponents_routeText (hr : IsComponent r) (hrs : ∀ r ∈ rs, IsComponent r) :
    nextComponents (routeText (r :: rs)) = if rs = [] then none else some (routeText rs) := by
  by_cases hn : rs = []
  · have hd := dropWhile_semicolon hr.noSemicolon []
    rw [append_nil] at hd
    rw [hn, routeText_singleton, if_pos rfl]
    simp only [nextComponents, hd]
    simp
  · obtain ⟨r', rs', rfl⟩ := exists_cons_of_ne_nil hn
    obtain ⟨c, rest, ht, hne, hb⟩ := routeText_head rs' (hrs r' (.head _))
    have h32 : c ≠ 32 := by
      rintro rfl
      exact absurd hb (by decide)
    rw [if_neg hn, routeText_cons hn]
    simp only [nextComponents, dropWhile_semicolon hr.noSemicolon, ht]
    simp [hne, h32]

def Succeeds (reply : Reply) : Prop := reply.status = .distOk ∨ reply.status = .distRedispatch

def routeBlock (mimeType : Bytes) (s : State) (reply : Reply) : Option Bytes :=
  (saveStaticRoute s reply.metadata).bind fun (out, _) =>
    (completeHeaders mimeType reply.data out).bind (deleteHeader · xRouteHeader)

def Clear (req : Request) (s : State) (reply : Reply) : Prop :=
  s.staticRoute.isSome = true ∨ s.staticRouteInitialized = false →
    ∃ type block m, setDistillerType req s.metadata = some (type, block) ∧
      routeBlock (mimeTypeOf block) s reply = some m ∧ Plain xRoute m

instance (req : Request) (s : State) (reply : Reply) : Decidable (Clear req s reply) :=
  decidable_of_iff
    (s.staticRoute.isSome = true ∨ s.staticRouteInitialized = false →
      ((setDistillerType req s.metadata).any fun (_, block) =>
        (routeBlock (mimeTypeOf block) s reply).any (Plain xRoute ·)) = true)
    (imp_congr_right fun _ => by simp [Option.any_eq_true])

def Undisturbed (req : Request) : State → List Reply → Prop
  | _, [] => True
  | s, reply :: replies =>
    Clear req s reply ∧ ∀ s', step req s reply s' → Undisturbed req s' replies

lemma undisturbed_of_replay {replies : List Reply}
    (h : (replay (Clear req) (attempt req) s replies).isSome = true) :
    Undisturbed req s replies := by
  induction replies generalizing s with
  | nil => trivial
  | cons reply replies ih =>
    unfold replay at h
    split_ifs at h with hc
    · refine ⟨hc, fun s' hs => ih ?_⟩
      rw [show attempt req s reply = some s' from hs, bind_some] at h
      exact h
    · cases h

section StaticRoute

variable {req : Request} {s : State}

lemma beginStage_of_carries (req : Request) (h : CarriesAt s.metadata xRoute route before after) :
    ∃ s' after', beginStage req s = some s' ∧ CarriesAt s'.metadata xRoute route before after' := by
  unfold beginStage
  split_ifs
  · obtain ⟨block, ha, hc⟩ := h.appendHeader locationHeader req.url
    simp only [insertHeader, Bool.false_eq_true, if_false, ha, map_some]
    exact ⟨_, _, rfl, hc⟩
  · exact ⟨_, _, rfl, h⟩

/-- **Redispatching with a static route.** The next stage has it as its route. -/
theorem redispatch_of_plain (req : Request) {out data m : Bytes} (hr : s.staticRoute = some route)
    (hv : IsValue route) (hag : s.taskAge + 1 ≤ PERF_REQUEST_TTL)
    (hc : completeHeaders s.mimeType data out = some block)
    (hd : deleteHeader block xRouteHeader = some m) (hp : Plain xRoute m) :
    ∃ s' before after, redispatch req s out data = some s' ∧
      CarriesAt s'.metadata xRoute route before after ∧
      s'.staticRoute = nextComponents route ∧
      s'.staticRouteInitialized = s.staticRouteInitialized ∧ s'.retcode = s.retcode ∧
      s'.taskAge = s.taskAge + 1 ∧ s'.trace = ⟨some route, []⟩ :: s.trace := by
  obtain ⟨block', before, ha, hca⟩ := hp.appendHeader (by decide +kernel)
    xRouteHeader (by decide +kernel) (by decide +kernel) hv
  have had : addRoute s block = some block' := by
    simp [addRoute, hr, insertHeader, hd, ha]
  obtain ⟨s', after, hb, hc'⟩ := beginStage_of_carries req
    (s := { s.advance with metadata := block', data := data, taskAge := s.taskAge + 1 }) hca
  obtain ⟨ht, hre, ha', hs, hi, -⟩ := beginStage_spec hb
  refine ⟨s', before, after, ?_, hc', ?_, hi, hre, ha', ?_⟩
  · rw [redispatch, hc, bind_some, had, bind_some]
    exact (if_pos hag).trans hb
  · rw [hs]
    change s.staticRoute.bind nextComponents = _
    rw [hr, bind_some]
  · rw [ht, routeOf_of_carries hc']
    rfl

lemma Succeeds.not_broken (h : Succeeds reply) : reply.status ≠ .distConnectionBroken := by
  intro hb
  rcases h with h | h <;> simp [h] at hb

lemma attempt_of_succeeds (hre : s.retcode = none)
    (ht : setDistillerType req s.metadata = some (type, block)) (hr : Succeeds reply) :
    attempt req s reply = conclude req (s.send type block) reply := by
  simp [attempt, hre, ht, hr.not_broken]

lemma conclude_of_route {out : Bytes} {s1 : State} (hr : Succeeds reply)
    (hsa : saveStaticRoute s reply.metadata = some (out, s1)) (hro : s1.staticRoute = some route) :
    conclude req s reply = redispatch req s1 out reply.data := by
  have hs : reply.status = .distOk ∨ reply.status = .distRedispatch := hr
  unfold conclude
  rw [if_pos hs, hsa, bind_some]
  dsimp only
  rw [if_pos (.inl (by rw [hro]; rfl))]

lemma conclude_of_end (hr : Succeeds reply) (hro : s.staticRoute = none)
    (hi : s.staticRouteInitialized = true) :
    conclude req s reply = some { s with retcode := some .distOk } := by
  have hsa : saveStaticRoute s reply.metadata = some (reply.metadata, s) := by
    rw [saveStaticRoute, if_pos hi]
  have hs : reply.status = .distOk ∨ reply.status = .distRedispatch := hr
  unfold conclude
  rw [if_pos hs, hsa, bind_some]
  dsimp only
  rw [if_neg (by simp [hro, hi])]

/-- The stage that has just begun has the route `rs`, of which the first component will be popped,
and the others are what is left of the static route. -/
structure OnRoute (s : State) (rs : List Bytes) : Prop where
  running : s.retcode = none
  initialized : s.staticRouteInitialized = true
  carries : ∃ before after, CarriesAt s.metadata xRoute (routeText rs) before after
  rest : s.staticRoute = nextComponents (routeText rs)
  age : s.taskAge + rs.length ≤ PERF_REQUEST_TTL + 1
  fresh : ∃ route trace, s.trace = ⟨route, []⟩ :: trace

lemma isValue_routeText (hr : IsComponent r) (hn : ∀ c ∈ routeText (r :: rs), isEndOfLine c = false)
    (hnn : (0 : UInt8) ∉ routeText (r :: rs)) : IsValue (routeText (r :: rs)) := by
  refine ⟨?_, hn, hnn⟩
  obtain ⟨c, rest, ht, -, hb⟩ := routeText_head rs hr
  rw [ht]
  intro d hd
  obtain rfl : c = d := by simpa using hd
  exact hb

lemma isValue_tail {r' : Bytes} (h : IsValue (routeText (r :: r' :: rs))) (hr' : IsComponent r') :
    IsValue (routeText (r' :: rs)) := by
  have ht : routeText (r :: r' :: rs) = r ++ 59 :: routeText (r' :: rs) :=
    routeText_cons (cons_ne_nil r' rs)
  refine isValue_routeText hr' (fun c hc => h.noEnd c ?_) fun h0 => h.noNul ?_
  · rw [ht]
    simp [hc]
  · rw [ht]
    simp [h0]

/-- **One stage of a static route**: it is sent to the first component, and the next one to the
second. -/
theorem OnRoute.step (req : Request) {r' : Bytes} (hs : OnRoute s (r :: r' :: rs))
    (hr : IsComponent r) (hrs : ∀ r ∈ r' :: rs, IsComponent r) (hv : IsValue (routeText (r' :: rs)))
    (hrp : Succeeds reply) (hcl : Clear req s reply) :
    ∃ s', step req s reply s' ∧ OnRoute s' (r' :: rs) ∧
      s'.trace = ⟨some (routeText (r' :: rs)), []⟩ :: record (some r) s.trace := by
  obtain ⟨before, after, hca⟩ := hs.carries
  have hty := setDistillerType_of_carries req hca
  rw [firstComponent_routeText hr, distillerType, if_pos hr.fits] at hty
  have hre : s.staticRoute = some (routeText (r' :: rs)) := by
    rw [hs.rest, nextComponents_routeText hr hrs, if_neg (cons_ne_nil r' rs)]
  have ha := hs.age
  simp only [length_cons] at ha
  -- the output's headers, with the route written to them
  obtain ⟨type, block, m, ht', hb, hp⟩ := hcl (.inl (by rw [hre]; rfl))
  cases ht'.symm.trans hty
  have hsa (t : State) (ht : t.staticRouteInitialized = true) :
      saveStaticRoute t reply.metadata = some (reply.metadata, t) := by
    rw [saveStaticRoute, if_pos ht]
  rw [routeBlock, hsa s hs.initialized, bind_some] at hb
  obtain ⟨block', hc, hd⟩ := bind_eq_some_iff.mp hb
  set t := s.send (some r) (popped (routeText (r :: r' :: rs)) before after)
  obtain ⟨s', before', after', hn, hc', hst, hi, hrt, ha', htr⟩ :=
    redispatch_of_plain req (s := t) hre hv (show t.taskAge + 1 ≤ _ from by
      change s.taskAge + 1 ≤ _
      omega) hc hd hp
  refine ⟨s', ?_, ⟨hrt.trans hs.running, hi.trans hs.initialized, ⟨before', after', hc'⟩,
    hst, ?_, _, _, htr⟩, htr⟩
  · rw [Dispatch.step, attempt_of_succeeds hs.running hty hrp,
      conclude_of_route hrp (hsa t hs.initialized) hre]
    exact hn
  · rw [ha']
    change s.taskAge + 1 + _ ≤ _
    rw [length_cons]
    omega

lemma OnRoute.last (req : Request) (hs : OnRoute s [r]) (hr : IsComponent r)
    (hre : Succeeds reply) :
    ∃ s', Dispatch.step req s reply s' ∧ s'.retcode = some .distOk ∧
      s'.trace = record (some r) s.trace := by
  obtain ⟨before, after, hc⟩ := hs.carries
  have ht := setDistillerType_of_carries req hc
  rw [firstComponent_routeText hr, distillerType, if_pos hr.fits] at ht
  have hrs : s.staticRoute = none := by
    rw [hs.rest, nextComponents_routeText hr (by simp), if_pos rfl]
  set t := s.send (some r) (popped (routeText [r]) before after)
  refine ⟨{ t with retcode := some .distOk }, ?_, rfl, rfl⟩
  rw [Dispatch.step, attempt_of_succeeds hs.running ht hre]
  exact conclude_of_end hre hrs hs.initialized

def routeStages (rs : List Bytes) : List (List DistillerType) :=
  (rs.map fun r => [some r]).reverse

/-- **Following a static route.** If all stages succeed, they are sent to the components in order,
and then the request is finished. -/
theorem OnRoute.follow {replies : List Reply} (hs : OnRoute s (r :: rs))
    (hrs : ∀ r' ∈ r :: rs, IsComponent r') (hv : IsValue (routeText (r :: rs)))
    (hl : replies.length = (r :: rs).length) (hre : ∀ reply ∈ replies, Succeeds reply)
    (hc : Undisturbed req s replies) :
    ∃ s', Run (Dispatch.step req) s replies s' ∧ s'.retcode = some .distOk ∧
      s'.trace.map (·.sent) = routeStages (r :: rs) ++ s.trace.tail.map (·.sent) := by
  induction rs generalizing r s replies with
  | nil =>
    obtain ⟨reply, rfl⟩ := length_eq_one_iff.mp hl
    obtain ⟨s', hst, hrt, ht⟩ := hs.last req (hrs r (.head _)) (hre reply (.head _))
    refine ⟨s', .cons hst (.nil s'), hrt, ?_⟩
    obtain ⟨route, trace, hf⟩ := hs.fresh
    rw [ht, hf]
    simp [record, routeStages]
  | cons r' rs ih =>
    obtain ⟨reply, replies, rfl⟩ := exists_cons_of_length_pos (l := replies) (by rw [hl]; simp)
    have hr := hrs r (.head _)
    have hr' : ∀ x ∈ r' :: rs, IsComponent x := fun x hx => hrs x (.tail r hx)
    have hv' := isValue_tail hv (hr' r' (.head _))
    obtain ⟨s1, hst, ho, ht⟩ := hs.step req hr hr' hv' (hre reply (.head _)) hc.1
    obtain ⟨s', hrun, hrt, ht'⟩ := ih ho hr' hv' (by simpa using hl)
      (fun x hx => hre x (.tail reply hx)) (hc.2 s1 hst)
    refine ⟨s', .cons hst hrun, hrt, ?_⟩
    obtain ⟨route, trace, hf⟩ := hs.fresh
    rw [ht', ht, hf]
    simp [record, routeStages]

lemma onRoute_of_found {found : Found} (hrt : s.retcode = none)
    (hi : s.staticRouteInitialized = false)
    (hf : getHeaderValue reply.metadata xStaticRoute = some found)
    (hro : found.value = routeText (r :: rs)) (hr : IsComponent r)
    (ha : s.taskAge + (r :: rs).length ≤ PERF_REQUEST_TTL) (hre : Succeeds reply)
    (hcl : Clear req s reply) :
    ∃ s' type, step req s reply s' ∧ OnRoute s' (r :: rs) ∧ IsValue (routeText (r :: rs)) ∧
      s'.trace.tail = record type s.trace := by
  obtain ⟨-, -, -, -, -, -, hv⟩ := exists_of_getHeaderValue hf
  rw [hro] at hv
  have hne : found.value ≠ [] := by
    obtain ⟨c, rest, hte, -⟩ := routeText_head rs hr
    rw [hro, hte]
    exact cons_ne_nil c rest
  obtain ⟨type, block, m, hty, hb, hp⟩ := hcl (.inr hi)
  simp only [length_cons] at ha
  -- the route is saved before the type and the headers of the input matter
  have hsa (t : State) (ht : t.staticRouteInitialized = false) :
      saveStaticRoute t reply.metadata =
        (deleteHeader reply.metadata xStaticRoute).map
          (·, { t with
            staticRoute := some found.value
            staticRouteInitialized := true
            initialized := fun _ => rfl }) := by
    simp [saveStaticRoute, ht, hf, if_neg hne]
  rw [routeBlock, hsa s hi] at hb
  obtain ⟨⟨out, s0⟩, hd, hb⟩ := bind_eq_some_iff.mp hb
  obtain ⟨out', hout, hpa⟩ := map_eq_some_iff.mp hd
  obtain rfl : out' = out := (Prod.mk.inj hpa).1
  obtain ⟨block', hc, hd'⟩ := bind_eq_some_iff.mp hb
  set t : State :=
    { s.send type block with
      staticRoute := some found.value
      staticRouteInitialized := true
      initialized := fun _ => rfl } with ht
  have hs' : saveStaticRoute (s.send type block) reply.metadata = some (out', t) := by
    rw [hsa (s.send type block) hi, hout, map_some]
  have hs : t.staticRoute = some (routeText (r :: rs)) := congrArg some hro
  obtain ⟨s', before, after, hn, hca, hrs, hi', hr', ha', htr⟩ :=
    redispatch_of_plain req (s := t) hs hv
      (show s.taskAge + 1 ≤ PERF_REQUEST_TTL by omega) hc hd' hp
  refine ⟨s', type, ?_, ⟨hr'.trans hrt, hi', ⟨before, after, hca⟩, hrs, ?_, _, _,
    htr⟩, hv, congrArg tail htr⟩
  · rw [step, attempt_of_succeeds hrt hty hre, conclude_of_route hre hs' hs]
    exact hn
  · rw [ha', length_cons]
    show s.taskAge + 1 + (rs.length + 1) ≤ PERF_REQUEST_TTL + 1
    omega

end StaticRoute

/-- **Pipeline routing.**  Whatever the distillers return,

* there are at most `PERF_REQUEST_TTL + 1` stages;
* without a static route a stage is followed by another one only if it returned `distRedispatch`;
* if a stage returns the first static route, if as many further stages as it has components are
  within the limit, and if every attempt succeeds and leaves headers that a route can be added to,
  then these stages are sent to its components in order, with one attempt each, and then the request
  is finished with `distOk`. -/
theorem pipeline_routing (req : Request) :
    (∀ svrHdrs svrData taskAge s replies s', start req svrHdrs svrData taskAge = some s →
      Run (step req) s replies s' → s'.trace.length ≤ PERF_REQUEST_TTL + 1) ∧
    (∀ s reply s', step req s reply s' → s.trace.length < s'.trace.length →
      s'.staticRouteInitialized = false → reply.status = .distRedispatch) ∧
    (∀ s reply found rs replies, s.retcode = none → s.staticRouteInitialized = false →
      getHeaderValue reply.metadata xStaticRoute = some found → found.value = routeText rs →
      rs ≠ [] → (∀ r ∈ rs, IsComponent r) → s.taskAge + rs.length ≤ PERF_REQUEST_TTL →
      replies.length = rs.length → (∀ reply' ∈ reply :: replies, Succeeds reply') →
      Undisturbed req s (reply :: replies) →
      ∃ s' type, Run (step req) s (reply :: replies) s' ∧ s'.retcode = some .distOk ∧
        s'.trace.map (·.sent) = routeStages rs ++ (record type s.trace).map (·.sent)) := by
  refine ⟨?_, ?_, ?_⟩
  · intro svrHdrs svrData taskAge s replies s' hst hrun
    have hli : Limited s' := hrun.invariant (fun _ _ _ h hs => h.step hs) (limited_start hst)
    exact hli.stages
  · intro s reply s' hs hlo hi
    obtain ⟨-, type, block, -, hout⟩ := outcome_of_step hs
    have hl := record_length type s.trace
    cases hout with
    | retry _ _ heq =>
      subst heq
      exact absurd hl hlo.ne'
    | next _ _ _ _ _ hu => exact hu hi
    | finish ht _ =>
      rw [ht, hl] at hlo
      exact absurd hlo (lt_irrefl _)
  · intro s reply found rs replies hre hi hf hro hne hrs ha hl hr hc
    obtain ⟨r, rs, rfl⟩ := exists_cons_of_ne_nil hne
    obtain ⟨s₁, type, hs, ho, hv, ht⟩ := onRoute_of_found hre hi hf hro
      (hrs r (.head _)) ha (hr reply (.head _)) hc.1
    obtain ⟨s', hrun, hok, ht'⟩ := ho.follow hrs hv hl
      (fun x hx => hr x (.tail reply hx)) (hc.2 s₁ hs)
    refine ⟨s', type, .cons hs hrun, hok, ?_⟩
    rw [ht', ht]

/-! ### A sample pipeline -/

/-- The URL `/` of the user `u`. -/
def sampleRequest : Request := ⟨[47], [117], [97, 103, 103], 3⟩

/-- A distiller that has done its work and returns no headers. -/
def done : Reply := ⟨.distOk, [], []⟩

def broken : Reply := ⟨.distConnectionBroken, [], []⟩

def doneWithRoute (route : Bytes) : Reply := ⟨.distOk, headerText xStaticRoute route, []⟩

/-- The first stage of a request whose answer has a `Location` header and no route yet. -/
def sampleStart : State :=
  { metadata := headerText locationHeader [47]
    data := []
    mimeType := []
    staticRoute := none
    staticRouteInitialized := false
    taskAge := 0
    triesLeft := 3
    trace := [⟨none, []⟩]
    retcode := none
    initialized := nofun }

/-- The static route `a;b`, followed without a disturbance. -/
theorem pipeline_routing_sample :
    ∃ s' type, Run (step sampleRequest) sampleStart [doneWithRoute [97, 59, 98], done, done] s' ∧
      s'.retcode = some .distOk ∧ s'.trace.map (·.sent) = [[some [98]], [some [97]], [type]] := by
  have hre : (replay (Clear sampleRequest) (attempt sampleRequest) sampleStart
      [doneWithRoute [97, 59, 98], done, done]).isSome = true := by decide +kernel
  have hf : getHeaderValue (doneWithRoute [97, 59, 98]).metadata xStaticRoute =
      some ⟨0, 16, [97, 59, 98]⟩ := by decide +kernel
  have hc : ∀ r ∈ [[(97 : UInt8)], [98]], IsComponent r := by
    intro r hr
    fin_cases hr <;> exact ⟨by simp, by decide, by decide, by simp [isBlank]⟩
  exact (pipeline_routing sampleRequest).2.2 sampleStart (doneWithRoute [97, 59, 98])
    ⟨0, 16, [97, 59, 98]⟩ [[97], [98]] [done, done] rfl rfl hf rfl (by simp) hc
    (by decide) rfl (by simp [Succeeds, done, doneWithRoute]) (undisturbed_of_replay hre)

/-- The same static route where the connection to `a` breaks once.  The stage is tried again and
succeeds, but with `b`, and the next one is sent to `b` as well. -/
theorem brokenStage_skips :
    ∃ s', Run (step sampleRequest) sampleStart
        [doneWithRoute [97, 59, 98], broken, done, done] s' ∧ s'.retcode = some .distOk ∧
      (s'.trace.map (·.sent)).take 2 = [[some [98]], [some [98], some [97]]] :=
  exists_run_of_decide (by decide +kernel)

/-! ## Retries -/

/-- Every attempt of a stage that began with a route was sent to the first component of it, and as
long as the stage lasts the headers still have that route. -/
structure SameWorker (s : State) : Prop where
  sent : ∀ stage ∈ s.trace, ∀ route, stage.route = some route →
    ∀ type ∈ stage.sent, type = some (firstComponent route)
  kept : s.retcode = none → ∀ stage trace, s.trace = stage :: trace →
    stage.route = routeOf s.metadata

def Retried (s : State) (reply : Reply) : Prop :=
  reply.status = .distConnectionBroken ∧ 0 < s.triesLeft

/-- A routed attempt is not retried, and the name of its distiller fits. -/
def Unretried (s : State) (reply : Reply) : Prop :=
  ∀ route, routeOf s.metadata = some route →
    (firstComponent route).length < MAXDISTILLER_TYPE_STRING ∧ ¬ Retried s reply

section Retries

variable {req : Request} {s s' : State} {reply : Reply}

lemma sameWorker_start {svrHdrs svrData : Bytes} {taskAge : ℕ}
    (h : start req svrHdrs svrData taskAge = some s) : SameWorker s := by
  obtain ⟨ht, -⟩ := beginStage_spec h
  refine ⟨?_, ?_⟩
  · intro stage hs route _ type hty
    rw [ht, mem_singleton] at hs
    subst hs
    cases hty
  · intro _ stage trace heq
    rw [ht] at heq
    exact (cons.inj heq).1 ▸ rfl

lemma SameWorker.sent_record (hs : SameWorker s) (hre : s.retcode = none)
    (hty : setDistillerType req s.metadata = some (type, block))
    (hf : ∀ route, routeOf s.metadata = some route →
      (firstComponent route).length < MAXDISTILLER_TYPE_STRING) :
    ∀ stage ∈ record type s.trace, ∀ route, stage.route = some route →
      ∀ type' ∈ stage.sent, type' = some (firstComponent route) := by
  cases ht : s.trace with
  | nil =>
    nofun
  | cons newest trace =>
    intro stage hst route hr type' ht'
    rcases mem_cons.mp hst with rfl | hold
    · have hr' : routeOf s.metadata = some route := (hs.kept hre newest trace ht).symm.trans hr
      rcases mem_cons.mp ht' with rfl | he
      · rw [type_of_route hr' hty, distillerType, if_pos (hf route hr')]
      · exact hs.sent newest (by rw [ht]; exact mem_cons_self) route hr type' he
    · exact hs.sent stage (by rw [ht]; exact mem_cons_of_mem _ hold) route hr type' ht'

lemma sameWorker_next {trace : List Stage}
    (hold : ∀ stage ∈ trace, ∀ route, stage.route = some route →
      ∀ type ∈ stage.sent, type = some (firstComponent route))
    (ht : s'.trace = ⟨routeOf s'.metadata, []⟩ :: trace) : SameWorker s' := by
  refine ⟨?_, ?_⟩
  · intro stage hs route hr type hty
    rw [ht] at hs
    rcases mem_cons.mp hs with rfl | hs
    · cases hty
    · exact hold stage hs route hr type hty
  · intro _ stage trace' heq
    rw [ht] at heq
    exact (cons.inj heq).1 ▸ rfl

lemma SameWorker.step (hs : SameWorker s) (hok : Unretried s reply)
    (h : step req s reply s') : SameWorker s' := by
  obtain ⟨hre, type, block, hty, hout⟩ := outcome_of_step h
  have hse := hs.sent_record hre hty fun route hr => (hok route hr).1
  cases hout with
  | retry hst htr heq =>
    subst heq
    -- only a stage without a route is retried, and choosing its type leaves the headers alone
    have hn : routeOf s.metadata = none := by
      by_contra hne
      obtain ⟨route, hr⟩ := ne_none_iff_exists'.mp hne
      exact (hok route hr).2 ⟨hst, htr⟩
    have hb : block = s.metadata := block_of_no_route hn hty
    refine ⟨hse, fun _ stage trace heq => ?_⟩
    show stage.route = routeOf block
    cases ht : s.trace with
    | nil =>
      simp [State.send, ht, record] at heq
    | cons newest rest =>
      simp only [State.send, ht, record, cons.injEq] at heq
      rw [← heq.1, hb]
      exact hs.kept hre newest rest ht
  | next _ ht _ _ _ _ => exact sameWorker_next hse ht
  | finish ht hr' => exact ⟨ht ▸ hse, fun hn => absurd hn hr'⟩

lemma otherComponents_length_lt (h : (59 : UInt8) ∈ route) :
    (otherComponents route).length < route.length := by
  have hle : (route.dropWhile (· ≠ 59)).length ≤ route.length := (dropWhile_sublist _).length_le
  have hpos : 0 < route.length := length_pos_of_mem h
  rw [otherComponents, length_drop]
  omega

lemma isValue_otherComponents (h : IsValue route) :
    IsValue ((otherComponents route).dropWhile isBlank) := by
  have hs : (otherComponents route).dropWhile isBlank ⊆ route := fun c hc =>
    (dropWhile_sublist _).subset (mem_of_mem_drop ((dropWhile_sublist _).subset hc))
  refine ⟨fun c hc => ?_, fun c hc => h.noEnd c (hs hc), fun h0 => h.noNul (hs h0)⟩
  have hh := head?_dropWhile_not isBlank (otherComponents route)
  rw [mem_def.mp hc] at hh
  exact hh

lemma carries_popped (h : CarriesAt block xRoute route before after)
    (hp : Plain xRoute (before ++ after)) (hse : 59 ∈ route) :
    CarriesAt (popped route before after) xRoute ((otherComponents route).dropWhile isBlank)
      (before ++ after.take (after.length - 2)) [13, 10] := by
  have hs : before ++ after =
      (before ++ after.take (after.length - 2)) ++ after.drop (after.length - 2) := by
    rw [append_assoc, take_append_drop]
  refine ⟨isValue_otherComponents h.isValue, ?_, ?_, le_refl _, xRoute,
    32 :: (otherComponents route).takeWhile isBlank, rfl, by decide +kernel, ?_, ?_⟩
  · exact strcasestr_eq_none_of_append (hs ▸ hp.free)
  · intro h0
    refine hp.noNul ?_
    rw [hs]
    exact mem_append_left _ h0
  · intro c hc
    rcases mem_cons.mp hc with rfl | hc
    · decide
    · exact mem_takeWhile_imp hc
  · rw [popped, if_pos hse, headerText]
    simp only [append_assoc, cons_append]
    rw [← append_assoc (takeWhile _ _), takeWhile_append_dropWhile]

lemma routeOf_plain (h : Plain xRoute block) : routeOf block = none := by
  simp [routeOf, getHeaderValue, cString_eq_self h.noNul, h.free]

lemma routeOf_popped_ne (h : CarriesAt block xRoute route before after)
    (hp : Plain xRoute (before ++ after)) : routeOf (popped route before after) ≠ some route := by
  by_cases hs : 59 ∈ route
  · rw [routeOf_of_carries (carries_popped h hp hs)]
    intro heq
    have hl := congrArg length (some.inj heq)
    have hle :
        ((otherComponents route).dropWhile isBlank).length ≤ (otherComponents route).length :=
      (dropWhile_sublist _).length_le
    have hlt := otherComponents_length_lt hs
    omega
  · rw [popped, if_neg hs, routeOf_plain hp]
    nofun

end Retries

/-- **Retries.**  In every run without a retry of a routed attempt, and with names that fit, each
attempt of a stage is sent to the first component of the route the stage began with, and nothing but
the end of the stage takes it off the route.  And where the route stands once in the headers, a
first attempt keeps this up exactly if it is not retried. -/
theorem sameWorker_of_run (req : Request) :
    (∀ svrHdrs svrData taskAge s replies s', start req svrHdrs svrData taskAge = some s →
      Run (Guarded Unretried (step req)) s replies s' → SameWorker s') ∧
    (∀ s reply s' route trace before after, SameWorker s → s.trace = ⟨some route, []⟩ :: trace →
      CarriesAt s.metadata xRoute route before after → Plain xRoute (before ++ after) →
      (firstComponent route).length < MAXDISTILLER_TYPE_STRING → step req s reply s' →
      (SameWorker s' ↔ ¬ Retried s reply)) := by
  refine ⟨?_, ?_⟩
  · intro svrHdrs svrData taskAge s replies s' hsr hrun
    exact hrun.invariant (fun _ _ _ h hst => h.step hst.1 hst.2) (sameWorker_start hsr)
  · intro s reply s' route trace before after hs htr hc hp hf hst
    have hro := routeOf_of_carries hc
    constructor
    · intro hs' hr
      obtain ⟨hre, type, block, ht, -⟩ := outcome_of_step hst
      obtain ⟨-, rfl⟩ := Prod.mk.inj (some.inj (ht.symm.trans (setDistillerType_of_carries req hc)))
      have heq : s' = { s.send type (popped route before after) with
          triesLeft := s.triesLeft - 1 } := by
        simp only [step, attempt, hre, if_true, ht, bind_some] at hst
        rw [if_pos ⟨hr.1, hr.2⟩] at hst
        exact (some.inj hst).symm
      subst heq
      refine routeOf_popped_ne hc hp (Eq.symm ?_)
      exact hs'.kept hre ⟨some route, [type]⟩ trace (by simp [State.send, htr, record])
    · intro hn
      refine hs.step (fun route' hr' => ?_) hst
      cases hro.symm.trans hr'
      exact ⟨hf, hn⟩

instance (s : State) (reply : Reply) : Decidable (Retried s reply) :=
  inferInstanceAs (Decidable (_ ∧ _))

instance (s : State) (reply : Reply) : Decidable (Unretried s reply) :=
  inferInstanceAs (Decidable (∀ route ∈ routeOf s.metadata, _ ∧ _))

/-- The headers of a server that asks for the route `a;b`. -/
def routedHeaders : Bytes := headerText xRouteHeader [97, 59, 98]

lemma carries_routedHeaders :
    CarriesAt (routedHeaders.take (routedHeaders.length - 2) ++ headerText locationHeader [47])
      xRoute [97, 59, 98] [] (headerText locationHeader [47]) where
  isValue := ⟨by simp [isBlank], by simp [isEndOfLine], by decide⟩
  free := by decide
  noNul := by simp
  blankLine := by decide
  eq := ⟨xRouteHeader, [32], by decide +kernel, by decide +kernel, by simp [isBlank], rfl⟩

/-- The first attempt succeeds. -/
theorem sameWorker_of_run_sample :
    ∃ s s', start sampleRequest routedHeaders [] 0 = some s ∧
      Run (Guarded Unretried (step sampleRequest)) s [done] s' ∧ SameWorker s' ∧
      (SameWorker s' ↔ ¬ Retried s done) := by
  have ha : (start sampleRequest routedHeaders [] 0).any (fun s =>
      decide (s.metadata = routedHeaders.take (routedHeaders.length - 2) ++
        headerText locationHeader [47] ∧ s.trace = [⟨some [97, 59, 98], []⟩]) &&
      (replay Unretried (attempt sampleRequest) s [done]).isSome) = true := by
    decide +kernel
  obtain ⟨s, hst, hs⟩ := (Option.any_eq_true _ _).mp ha
  rw [Bool.and_eq_true, decide_eq_true_eq] at hs
  obtain ⟨⟨hm, ht⟩, hr⟩ := hs
  obtain ⟨s', hs'⟩ := isSome_iff_exists.mp hr
  have hrun : Run (Guarded Unretried (step sampleRequest)) s [done] s' := run_of_replay hs'
  have hf : SameWorker s :=
    (sameWorker_of_run sampleRequest).1 routedHeaders [] 0 s [] s hst (.nil s)
  have hsp : step sampleRequest s done s' := by
    cases hrun with
    | cons h hn =>
      cases hn
      exact h.2
  refine ⟨s, s', hst, hrun,
    (sameWorker_of_run sampleRequest).1 routedHeaders [] 0 s [done] s' hst hrun, ?_⟩
  exact (sameWorker_of_run sampleRequest).2 s done s' [97, 59, 98] [] []
    (headerText locationHeader [47]) hf ht (hm ▸ carries_routedHeaders)
    (by decide +kernel) (by decide) hsp

/-- The connection to `a` breaks: the second attempt of the stage is sent to `b`. -/
theorem retry_skips :
    ∃ s s', start sampleRequest routedHeaders [] 0 = some s ∧
      Run (step sampleRequest) s [broken, done] s' ∧
      s'.trace = [⟨some [97, 59, 98], [some [98], some [97]]⟩] ∧ ¬ SameWorker s' := by
  have ha : (start sampleRequest routedHeaders [] 0).any (fun s =>
      (replay (fun _ _ => True) (attempt sampleRequest) s [broken, done]).any (fun s' =>
        s'.trace = [⟨some [97, 59, 98], [some [98], some [97]]⟩])) = true := by
    decide +kernel
  obtain ⟨s, hst, hs⟩ := (Option.any_eq_true _ _).mp ha
  obtain ⟨s', hrun, ht⟩ := exists_run_of_decide hs
  refine ⟨s, s', hst, hrun, ht, fun hsa => ?_⟩
  have hse := hsa.sent ⟨some [97, 59, 98], [some [98], some [97]]⟩ (by simp [ht])
    [97, 59, 98] rfl (some [98]) (by simp)
  exact absurd hse (by decide)

end Glomop.Dispatch
