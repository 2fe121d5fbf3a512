import Glomop.Cache.Beacon
import Glomop.Ptm.Runs

/-!
# What a beacon announces

A front end reads from a beacon what the PTM meant as long as no field contains the delimiter that
ends it (`Unambiguous`).  Registration cannot get one into a record (`clean_of_parseRegister`).
Registering again reads the type up to a NUL, and is the only way in (`reregistered_misread`,
`unambiguous_of_run`).
-/

namespace Glomop.Ptm

open Lib Prog IStream

/-- No registered distiller has a `|` in its type; and the next beacon, whenever it fits into a
packet, is read by a front end as the address of the PTM and exactly its awake distillers. -/
structure Unambiguous (s : State) : Prop where
  noBar : ∀ d ∈ s.distillerDB, ∃ r, s.distillers.cell d = some r ∧ bar ∉ r.type.chars
  decodes : s.myAddress.port ≠ 0 → slash ∉ s.myAddress.ipAddress.chars →
    ∃ list, s.distillers.gather s.distillerDB = some list ∧
      ((beaconText s.myAddress s.myRandomID (awake list)).length < 2 ^ 31 →
        ∃ p, sendBeacon s.myAddress s.myRandomID list = some p) ∧
      ∀ p, sendBeacon s.myAddress s.myRandomID list = some p → ∀ past st,
        ∃ stream, Cache.readBeacon (ofPacket p past st) =
            some (some (s.myAddress, awake list), stream) ∧
          stream.isGood = true ∧ stream.status = st

/-- No packet that registers a distiller again has a `|` before its first NUL. -/
def ReregistersWithoutBar (_s : State) (i : Input) : Prop :=
  match i.event with
  | .packet _ p _ =>
    PTMPacketType.ofWord p.type = some .pktReregisterDistiller → bar ∉ cString p.data
  | _ => True

instance (s : State) (i : Input) : Decidable (ReregistersWithoutBar s i) :=
  match i with
  | ⟨.packet _ p _, _, _⟩ => inferInstanceAs
      (Decidable (PTMPacketType.ofWord p.type = some .pktReregisterDistiller →
        bar ∉ cString p.data))
  | ⟨.readError _ _, _, _⟩ | ⟨.accept, _, _⟩ | ⟨.bus _ _, _, _⟩ | ⟨.launchTimer _, _, _⟩
  | ⟨.beaconTimer, _, _⟩ | ⟨.reload _ _, _, _⟩ => inferInstanceAs (Decidable True)

/-! ## What gets into a record -/

variable {stream : IStream}

lemma eq_of_finish {α : Type} {a b : α} {stream' : IStream}
    (h : finish a stream = some (some b, stream')) : b = a := by
  simp only [finish, refuse, ite_eq_some, run_iff] at h
  rcases h with ⟨_, hb, _⟩ | ⟨_, ⟨_, hb, _⟩ | ⟨_, hb, _⟩⟩
  · cases hb
  · cases hb
  · exact Option.some.inj hb

lemma clean_of_parseRegister {stream' : IStream} {reg : Registration}
    (h : parseRegister stream = some (some reg, stream')) :
    slash ∉ reg.distAddress.ipAddress.chars ∧ bar ∉ reg.distillerType.chars := by
  simp only [parseRegister, refuse, delimit, ite_eq_some, run_iff] at h
  obtain ⟨rid, _, hr, _, _, _, h⟩ := h
  rcases h with ⟨_, h, _⟩ | ⟨_, ⟨_, h, _⟩ | ⟨_, type, _, ht, h⟩⟩
  · cases h
  · cases h
  obtain ⟨_, _, _, ⟨_, h, _⟩ | ⟨_, sleep, _, _, _, _, _, h⟩⟩ := h
  · cases h
  rcases h with ⟨_, h, _⟩ | ⟨_, restart, _, _, _, _, _, h⟩
  · cases h
  obtain rfl := eq_of_finish h
  refine ⟨inputRemoteID_noSlash hr List.not_mem_nil, fun hmem => ?_⟩
  rcases List.mem_append.mp (inputType_subset ht hmem) with hmem | hmem
  · cases hmem
  · simpa using List.mem_takeWhile_imp hmem

lemma subset_of_parseReregister {p : Packet} {past : UInt8} {st : Errors} {type : DistillerType}
    (h : parseReregister (ofPacket p past st) = some (some type, stream)) :
    type.chars ⊆ cString p.data := by
  simp only [parseReregister, delimit, run_iff] at h
  obtain ⟨string, _, hs, _, _, _, hf⟩ := h
  obtain rfl := eq_of_finish hf
  have hsu := inputType_subset hs
  exact hsu

abbrev AllClean (distillers : Heap DistillerRecord) : Prop :=
  distillers.All fun r => r.toBasicDistiller.Clean

/-- **A round lets no delimiter in**, unless one comes with a distiller that registers again. -/
theorem Round.allClean {s s' : State} {e : Event} (h : Round s e s') (hs : AllClean s.distillers)
    (hok : ∀ c p past, e = .packet c p past →
      PTMPacketType.ofWord p.type = some .pktReregisterDistiller → bar ∉ cString p.data) :
    AllClean s'.distillers := by
  refine h.all hs (fun _ hr => hr) (fun _ _ hr => ⟨hr.ip_noSlash, hr.type_noBar⟩)
    (fun _ _ _ _ _ hp => ?_) fun c p past _ _ _ he ht hp hr => ?_
  · obtain ⟨hip, ht⟩ := clean_of_parseRegister hp
    exact ⟨hip, ht⟩
  · refine ⟨hr.ip_noSlash, fun hmem => ?_⟩
    exact hok c p past he ht (subset_of_parseReregister hp hmem)

lemma unambiguous_of_allClean {s : State} (hre : s.distillers.ListedIn s.distillerDB)
    (hc : AllClean s.distillers) : Unambiguous s := by
  constructor
  · intro d hd
    obtain ⟨r, hr⟩ := Heap.live_iff.mp ((hre.mem_iff d).mp hd)
    exact ⟨r, hr, (hc d r hr).type_noBar⟩
  · intro hpo hip
    obtain ⟨list, hl⟩ := Heap.exists_gather fun d hd => (hre.mem_iff d).mp hd
    refine ⟨list, hl, sendBeacon_isSome _ _ _, fun p hp past st => ?_⟩
    refine Cache.readBeacon_of_sendBeacon hpo hip ?_ hp past st
    intro record hrc
    obtain ⟨r, hr, rfl⟩ := List.mem_map.mp hrc
    obtain ⟨d, hce⟩ := Heap.mem_of_gather hl (List.mem_of_mem_filter hr)
    exact hc d r hce

section

variable {ipNumber : CString MAXIP → UInt32} {s s' : State} {inputs : List Input}

/-- **No delimiter injection**: in every state of a run the records are unambiguous, if no distiller
registers again with a `|` in its type. -/
theorem unambiguous_of_run (hs : Initial s)
    (h : Run (Guarded ReregistersWithoutBar (step ipNumber)) s inputs s') : Unambiguous s' := by
  obtain ⟨hr, hc⟩ : s'.distillers.ListedIn s'.distillerDB ∧ AllClean s'.distillers := by
    refine runs_invariant (I := fun s => AllClean s.distillers) ?_ ?_ hs h
    · exact fun s hs => all_of_initial hs _
    · rintro s ⟨e, outcomes, now⟩ s' _ hc hok hro
      refine hro.allClean hc ?_
      rintro c p past rfl
      exact hok
  exact unambiguous_of_allClean hr hc

end

/-- Two distillers register, at `1/80` and at `2/80`, and the second registers again with a type. -/
def twoDistillers (type : Bytes) (h : type.length ≤ maxPacketLength) : List Input :=
  [calm .accept, registerA 0 0 50, calm .accept,
    arrival 1 .pktRegisterDistiller 0 [50, 47, 56, 48, 124, 97, 124, 50, 124, 48] (by decide),
    arrival 1 .pktReregisterDistiller 0 type h]

theorem unambiguous_of_run_twoDistillers :
    ∃ s s', Initial s ∧ Run (Guarded ReregistersWithoutBar (step fun _ => 0)) s
      (twoDistillers [98, 0] (by decide)) s' ∧ s'.distillerDB = [1, 0] ∧ Unambiguous s' := by
  obtain ⟨s, s', hs, hrun, hdb⟩ := exists_run_of_playFrom ReregistersWithoutBar
    (twoDistillers [98, 0] (by decide)) (fun s' => s'.distillerDB = [1, 0]) (by decide +kernel)
  exact ⟨s, s', hs, hrun, hdb, unambiguous_of_run hs hrun⟩

/-- Two distillers are awake, but a front end reads none from the next beacon. -/
def misread (s : State) : Bool :=
  (s.distillers.gather s.distillerDB).any fun list =>
    (sendBeacon s.myAddress s.myRandomID list).any fun p =>
      (Cache.readBeacon (ofPacket p 0 .success)).any fun (read, _) =>
        (awake list).length = 2 ∧ read = some (s.myAddress, [])

/-- The type `a|b` gets into a record, and the front ends no longer learn of either distiller. -/
theorem reregistered_misread :
    ∃ s s', Initial s ∧ Run (step fun _ => 0) s (twoDistillers [97, 124, 98, 0] (by decide)) s' ∧
      (∃ r, s'.distillers.cell 1 = some r ∧ bar ∈ r.type.chars) ∧ misread s' = true ∧
      ¬ Unambiguous s' := by
  obtain ⟨s, s', hs, hrun, hdb, ⟨r, hr, hb⟩, hm⟩ := exists_run_of_playFrom (fun _ _ => True)
    (twoDistillers [97, 124, 98, 0] (by decide)) (fun s' => s'.distillerDB = [1, 0] ∧
      (∃ r ∈ s'.distillers.cell 1, bar ∈ r.type.chars) ∧ misread s') (by decide +kernel)
  refine ⟨s, s', hs, hrun.mono fun _ _ _ h => h.2, ⟨r, hr, hb⟩, hm, fun h => ?_⟩
  obtain ⟨r', hr', hn⟩ := h.noBar 1 (by simp [hdb])
  cases hr.symm.trans hr'
  exact hn hb

end Glomop.Ptm
