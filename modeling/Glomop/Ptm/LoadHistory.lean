import Glomop.Lib.Ring
import Glomop.Ptm.Runs

/-!
# The average of the loads

The record of a distiller keeps the last reports in a ring and their sum in `loadOverHistory`, from
which each report subtracts the one it replaces.  The sum is a 32-bit word, but never drifts
(`loadOverHistory_of_reports`), whatever a PTM does (`averaged_of_run`).
-/

namespace Glomop.Ptm

open Lib
open List hiding set

/-! ## What the sum should be -/

def totalLatency (loads : List Load) : ℕ := (loads.map (·.totalLatency_ms.toNat)).sum

/-- The last `n` reports, the oldest first; before there were so many, the first are zero. -/
def lastReports (n : ℕ) (reports : List Load) : List Load :=
  (List.replicate n Load.zero ++ reports).drop reports.length

@[simp] lemma totalLatency_cons (load : Load) (loads : List Load) :
    totalLatency (load :: loads) = load.totalLatency_ms.toNat + totalLatency loads := by
  simp [totalLatency]

@[simp] lemma totalLatency_concat (loads : List Load) (load : Load) :
    totalLatency (loads ++ [load]) = totalLatency loads + load.totalLatency_ms.toNat := by
  simp [totalLatency]

lemma lastReports_nil (n : ℕ) : lastReports n [] = replicate n Load.zero := by
  simp [lastReports]

variable {n : ℕ}

lemma lastReports_concat (hn : 0 < n) (reports : List Load) (load : Load) :
    lastReports n (reports ++ [load]) = (lastReports n reports).tail ++ [load] := by
  have hle : reports.length + 1 ≤ (replicate n Load.zero ++ reports).length := by
    simp
    omega
  unfold lastReports
  rw [← append_assoc, length_append, length_singleton, drop_append_of_le_length hle, tail_drop]

/-! ## One report -/

namespace DistillerRecord

variable {r : DistillerRecord}

def window (r : DistillerRecord) : List Load := r.history.rotate r.currentPos

lemma window_eq_cons (r : DistillerRecord) :
    r.window = r.history.get ⟨r.currentPos, r.currentPos_lt⟩ :: r.window.tail := by
  have hlt := r.currentPos_lt
  rw [window, rotate_eq_drop_append_take hlt.le, drop_eq_getElem_cons hlt]
  rfl

@[simp] lemma report_history_length (r : DistillerRecord) (newLoad : Load) :
    (r.report newLoad).history.length = r.history.length := by
  simp [report]

lemma window_report (r : DistillerRecord) (newLoad : Load) :
    (r.report newLoad).window = r.window.tail ++ [newLoad] :=
  rotate_set_succ r.currentPos_lt newLoad

def SumRight (r : DistillerRecord) : Prop :=
  r.loadOverHistory.totalLatency_ms.toNat = totalLatency r.window % 2 ^ 32

/-- **One report**: what is subtracted from the sum is what leaves the ring. -/
theorem SumRight.report (h : r.SumRight) (newLoad : Load) : (r.report newLoad).SumRight := by
  unfold SumRight at h ⊢
  rw [window_report, totalLatency_concat]
  rw [window_eq_cons, totalLatency_cons] at h
  set oldest := r.history.get ⟨r.currentPos, r.currentPos_lt⟩
  have hold := oldest.totalLatency_ms.toNat_lt
  have hs : (r.report newLoad).loadOverHistory.totalLatency_ms =
      r.loadOverHistory.totalLatency_ms - oldest.totalLatency_ms + newLoad.totalLatency_ms := rfl
  rw [hs, UInt32.toNat_add, UInt32.toNat_sub, h]
  omega

lemma report_load (r : DistillerRecord) (newLoad : Load) (hs : r.history.length < 2 ^ 32) :
    (r.report newLoad).load.totalLatency_ms.toNat =
      (r.report newLoad).loadOverHistory.totalLatency_ms.toNat / r.history.length := by
  have hne : r.history.length ≠ 0 := (Nat.zero_lt_of_lt r.currentPos_lt).ne'
  have hl : (r.report newLoad).load.totalLatency_ms =
      (r.report newLoad).loadOverHistory.totalLatency_ms / UInt32.ofNat r.history.length :=
    if_neg hne
  rw [hl, UInt32.toNat_div, UInt32.toNat_ofNat_of_lt' hs]

/-! ## Every sequence of reports -/

def reported (r : DistillerRecord) (reports : List Load) : DistillerRecord :=
  reports.foldl report r

structure HasReports (n : ℕ) (reports : List Load) (r : DistillerRecord) : Prop where
  size : r.history.length = n
  window_eq : r.window = lastReports n reports
  sum : r.SumRight
  load : r.load.totalLatency_ms.toNat = r.loadOverHistory.totalLatency_ms.toNat / n

lemma HasReports.report {reports : List Load} (hn : n < 2 ^ 32) (h : r.HasReports n reports)
    (newLoad : Load) : (r.report newLoad).HasReports n (reports ++ [newLoad]) := by
  have hpos : 0 < n := h.size ▸ Nat.zero_lt_of_lt r.currentPos_lt
  refine ⟨(report_history_length r newLoad).trans h.size, ?_, h.sum.report newLoad, ?_⟩
  · rw [window_report, h.window_eq, lastReports_concat hpos]
  · rw [report_load r newLoad (h.size ▸ hn), h.size]

lemma HasReports.reported {past : List Load} (hn : n < 2 ^ 32) (h : r.HasReports n past)
    (reports : List Load) : (r.reported reports).HasReports n (past ++ reports) := by
  induction reports generalizing r past with
  | nil => rwa [append_nil]
  | cons newLoad reports ih =>
    have hr := ih (h.report hn newLoad)
    rwa [append_assoc] at hr

end DistillerRecord

section Fresh

variable (privateConnection : ℕ) (rid : RemoteID) (type : DistillerType)
  (status mustRestartOnDeath : UInt32) (launchRecord : Option (ℕ × LaunchRecord))

lemma hasReports_freshRecord
    (hn : (freshRecord privateConnection rid type status mustRestartOnDeath
      launchRecord).history.length = n) :
    (freshRecord privateConnection rid type status mustRestartOnDeath launchRecord).HasReports
      n [] := by
  have hw : (freshRecord privateConnection rid type status mustRestartOnDeath
      launchRecord).window = lastReports n [] := by
    rw [lastReports_nil, ← hn]
    simp [DistillerRecord.window, freshRecord]
  refine ⟨hn, hw, ?_, ?_⟩
  · rw [DistillerRecord.SumRight, hw, lastReports_nil]
    simp [totalLatency, Load.zero, freshRecord]
  · exact (Nat.zero_div n).symm

/-- **The moving average.**  After any reports to a new record with a history of `n` loads, the sum
that is kept is the sum of the last `n` reports modulo `2 ^ 32`; and where that sum is below
`2 ^ 32`, the load that is published is its quotient by `n`.  A history size is an `int`. -/
theorem loadOverHistory_of_reports {n : ℕ}
    (hn : (freshRecord privateConnection rid type status mustRestartOnDeath
      launchRecord).history.length = n) (hint : n < 2 ^ 31) (reports : List Load) :
    let r := (freshRecord privateConnection rid type status mustRestartOnDeath
      launchRecord).reported reports
    r.loadOverHistory.totalLatency_ms.toNat = totalLatency (lastReports n reports) % 2 ^ 32 ∧
      (totalLatency (lastReports n reports) < 2 ^ 32 →
        r.load.totalLatency_ms.toNat = totalLatency (lastReports n reports) / n) := by
  have hf := hasReports_freshRecord privateConnection rid type status mustRestartOnDeath
    launchRecord hn
  have h := hf.reported (by omega) reports
  have hs := h.sum
  rw [DistillerRecord.SumRight, h.window_eq, nil_append] at hs
  refine ⟨hs, fun hlt => ?_⟩
  rw [h.load, hs, Nat.mod_eq_of_lt hlt]

end Fresh

/-- A history of three loads and four reports; the first one is forgotten. -/
theorem loadOverHistory_of_four_reports :
    let launchRecord : LaunchRecord := ⟨CString.empty _, 0, 3, 0, Load.zero, 0, false, false⟩
    let r := (freshRecord 0 RemoteID.empty (CString.empty _) 0 0 (some (0, launchRecord))).reported
      [⟨10, 0⟩, ⟨20, 0⟩, ⟨40, 0⟩, ⟨81, 0⟩]
    r.loadOverHistory.totalLatency_ms.toNat = 141 ∧ r.load.totalLatency_ms.toNat = 47 := by
  intro launchRecord
  have h := loadOverHistory_of_reports 0 RemoteID.empty (CString.empty _) 0 0
    (some (0, launchRecord)) (n := 3) rfl (by decide) [⟨10, 0⟩, ⟨20, 0⟩, ⟨40, 0⟩, ⟨81, 0⟩]
  exact ⟨h.1, h.2 (by decide)⟩

/-! ## Every distiller of a PTM -/

/-- **The sum is right in every state of a run**: for each distiller it is that of the loads in its
ring. -/
theorem averaged_of_run {ipNumber : CString MAXIP → UInt32} {inputs : List Input} {s s' : State}
    (hs : Initial s) (h : Run (step ipNumber) s inputs s') :
    s'.distillers.All DistillerRecord.SumRight := by
  have hg : Run (Guarded (fun _ _ => True) (step ipNumber)) s inputs s' :=
    h.mono fun _ _ _ hst => ⟨trivial, hst⟩
  refine (runs_invariant (fun s hs => all_of_initial hs _) (fun s i s' _ ha _ hro => ?_) hs hg).2
  refine hro.all ha (fun _ hr => hr) (fun _ load hr => hr.report load)
    (fun _ _ reg c found _ => ?_) fun _ _ _ _ _ _ _ _ _ hr => hr
  exact (hasReports_freshRecord c reg.distAddress reg.distillerType reg.sleepStatus
    reg.restartFlag found rfl).sum

theorem averaged_of_run_registered :
    ∃ s s' : State, Initial s ∧ Run (step fun _ => 0) s (registerAndReport 50) s' ∧
      (s'.distillers.cell 0).map (·.loadOverHistory) = some ⟨70, 0⟩ ∧
      s'.distillers.All DistillerRecord.SumRight := by
  obtain ⟨s, s', hs, hrun, hl⟩ := exists_run_of_playFrom (fun _ _ => True) (registerAndReport 50)
    (fun s' => (s'.distillers.cell 0).map (·.loadOverHistory) = some ⟨70, 0⟩) (by decide +kernel)
  have h := hrun.mono fun _ _ _ h => h.2
  exact ⟨s, s', hs, h, hl, averaged_of_run hs h⟩

end Glomop.Ptm
