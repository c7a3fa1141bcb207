import CostEngine.Concurrency.Soundness
import CostEngine.SessionAdmission.Service

/-! # What the locks of `demo_sessions` guard

`Distinct` is the invariant of the committed rows. A session keeps its identity, and datasets
come into being for companies of sessions only (`Keeps`). -/

namespace CostEngine

open Relational (Table)

/-! ## Revoking -/

namespace SessionRow

variable (p : Uuid → Bool) (now : Time) (row : SessionRow)

/-- A revocation changes one column. -/
theorem revokeIf_eq : ∃ revokedAt, row.revokeIf p now = { row with revokedAt } := by
  unfold revokeIf
  split
  · exact ⟨_, rfl⟩
  · exact ⟨row.revokedAt, rfl⟩

@[simp] theorem revokeIf_id : (row.revokeIf p now).id = row.id := by
  obtain ⟨revokedAt, h⟩ := row.revokeIf_eq p now
  rw [h]

@[simp] theorem revokeIf_companyCode : (row.revokeIf p now).companyCode = row.companyCode := by
  obtain ⟨revokedAt, h⟩ := row.revokeIf_eq p now
  rw [h]

@[simp] theorem revokeIf_tokenHash : (row.revokeIf p now).tokenHash = row.tokenHash := by
  obtain ⟨revokedAt, h⟩ := row.revokeIf_eq p now
  rw [h]

end SessionRow

namespace SessionDatabase

/-! ## The invariant -/

structure Distinct (db : SessionDatabase) : Prop where
  companies : (db.demoSessions.rows.map (·.companyCode)).Nodup
  hashes : (db.demoSessions.rows.map (·.tokenHash)).Nodup

/-- What a lock guards. -/
def Same : DemoSessionsLock → SessionDatabase → SessionDatabase → Prop
  | .shareRowExclusive, db, db' => db.demoSessions = db'.demoSessions
  | .rowExclusive, _, _ => True
  | .id id, db, db' => db.demoSessions.get? id = db'.demoSessions.get? id
  | .companyCode companyCode, db, db' => db.hasCompany companyCode = db'.hasCompany companyCode
  | .tokenHash hash, db, db' => db.hasHash hash = db'.hasHash hash

structure Keeps (db db' : SessionDatabase) : Prop where
  clock : db.clock ≤ db'.clock
  sessions : ∀ {row}, row ∈ db.demoSessions.rows →
    ∃ revokedAt, { row with revokedAt } ∈ db'.demoSessions.rows
  companies : ∀ {c}, c ∈ db'.companies → c ∈ db.companies ∨ db'.hasCompany c = true

variable {db db' db'' : SessionDatabase} {row : SessionRow} {l : DemoSessionsLock}

theorem hasCompany_iff {c : String} :
    db.hasCompany c = true ↔ ∃ row ∈ db.demoSessions.rows, row.companyCode = c := by
  simp [hasCompany, List.any_eq_true]

theorem hasHash_iff {h : List UInt8} :
    db.hasHash h = true ↔ ∃ row ∈ db.demoSessions.rows, row.tokenHash = h := by
  simp [hasHash, List.any_eq_true]

theorem Same.refl (l : DemoSessionsLock) (db : SessionDatabase) : Same l db db := by
  cases l <;> first | exact trivial | exact rfl

theorem Same.trans (h : Same l db db') (h' : Same l db' db'') : Same l db db'' := by
  cases l <;> first | exact trivial | exact Eq.trans h h'

theorem Keeps.hasCompany (h : db.Keeps db') {c : String} (hc : db.hasCompany c = true) :
    db'.hasCompany c = true := by
  obtain ⟨row, hrow, rfl⟩ := hasCompany_iff.mp hc
  obtain ⟨revokedAt, hrow'⟩ := h.sessions hrow
  exact hasCompany_iff.mpr ⟨_, hrow', rfl⟩

theorem Keeps.refl (db : SessionDatabase) : db.Keeps db where
  clock := Nat.le_refl _
  sessions {row} hrow := ⟨row.revokedAt, hrow⟩
  companies hc := .inl hc

theorem Keeps.trans (h : db.Keeps db') (h' : db'.Keeps db'') : db.Keeps db'' where
  clock := Nat.le_trans h.clock h'.clock
  sessions hrow := by
    obtain ⟨revokedAt, hrow'⟩ := h.sessions hrow
    obtain ⟨revokedAt', hrow''⟩ := h'.sessions hrow'
    exact ⟨revokedAt', hrow''⟩
  companies hc := by
    rcases h'.companies hc with hc | hc
    · rcases h.companies hc with hc | hc
      · exact .inl hc
      · exact .inr (h'.hasCompany hc)
    · exact .inr hc

/-! ## Revocations -/

section Revoked

variable {p : Uuid → Bool} {now : Time}
variable (hrows : db'.demoSessions.rows = db.demoSessions.rows.map (·.revokeIf p now))
include hrows

theorem Distinct.revoked (h : db.Distinct) : db'.Distinct := by
  refine ⟨?_, ?_⟩
  · rw [hrows, List.map_map]
    simpa [Function.comp_def] using h.companies
  · rw [hrows, List.map_map]
    simpa [Function.comp_def] using h.hashes

theorem hasCompany_revoked (c : String) : db'.hasCompany c = db.hasCompany c := by
  simp [hasCompany, hrows, List.any_map, Function.comp_def]

theorem Keeps.revoked (hclock : db.clock ≤ db'.clock)
    (hcompanies : ∀ c ∈ db'.companies, c ∈ db.companies) : db.Keeps db' where
  clock := hclock
  sessions {row} hrow := by
    obtain ⟨revokedAt, h⟩ := row.revokeIf_eq p now
    refine ⟨revokedAt, ?_⟩
    rw [hrows, ← h]
    exact List.mem_map_of_mem hrow
  companies hc := .inl (hcompanies _ hc)

/-- A lock that does not stand in the way of an update guards nothing that it changes. -/
theorem Same.revoked (htable : l ≠ .shareRowExclusive)
    (hid : ∀ row ∈ db.demoSessions.rows, p row.id = true → l ≠ .id row.id) : Same l db db' := by
  cases l with
  | shareRowExclusive => exact absurd rfl htable
  | rowExclusive => trivial
  | id id =>
      have hget : db'.demoSessions.get? id = (db.demoSessions.get? id).map (·.revokeIf p now) :=
        Table.get?_of_rows_map (fun row => row.revokeIf_id p now) hrows
      refine Eq.trans ?_ hget.symm
      cases hrow : db.demoSessions.get? id with
      | none => rfl
      | some row =>
          have hp : ¬ p row.id = true := fun hp =>
            hid row (Table.get?_mem hrow) hp (by rw [Table.get?_key hrow])
          rw [Option.map_some, SessionRow.revokeIf, if_neg hp]
  | companyCode c => exact (hasCompany_revoked hrows c).symm
  | tokenHash h =>
      show db.hasHash h = db'.hasHash h
      simp [hasHash, hrows, List.any_map, Function.comp_def]

end Revoked

/-- The update of one session, as `revoke` makes it. -/
theorem rows_put_revoke {now : Time} (h : db.demoSessions.get? row.id = some row) :
    (db.apply (.putSession (row.revoke now))).demoSessions.rows
      = db.demoSessions.rows.map (·.revokeIf (· = row.id) now) := by
  refine List.map_congr_left fun r hr => ?_
  show (if r.id = row.id then row.revoke now else r) = SessionRow.revokeIf _ _ r
  unfold SessionRow.revokeIf
  by_cases hid : r.id = row.id
  · have hget : db.demoSessions.get? row.id = some r := hid ▸ Table.get?_of_mem hr
    cases h.symm.trans hget
    rw [if_pos rfl, if_pos (decide_eq_true rfl)]
  · rw [if_neg hid, if_neg (by simpa using hid)]

/-! ## A new session -/

theorem taken_eq_false : db.taken row = false ↔ db.demoSessions.get? row.id = none
    ∧ db.hasCompany row.companyCode = false ∧ db.hasHash row.tokenHash = false := by
  simp [taken, Option.isSome_eq_false_iff, and_assoc]

section Inserted

variable (hfree : db.taken row = false)
include hfree

theorem rows_insertSession :
    (db.apply (.insertSession row)).demoSessions.rows = db.demoSessions.rows ++ [row] :=
  Table.rows_insert (taken_eq_false.mp hfree).1

theorem hasCompany_insertSession (c : String) : (db.apply (.insertSession row)).hasCompany c
    = (db.hasCompany c || row.companyCode = c) := by
  simp [hasCompany, rows_insertSession hfree]

theorem hasHash_insertSession (h : List UInt8) : (db.apply (.insertSession row)).hasHash h
    = (db.hasHash h || row.tokenHash = h) := by
  simp [hasHash, rows_insertSession hfree]

theorem Distinct.inserted (h : db.Distinct) : (db.apply (.insertSession row)).Distinct := by
  obtain ⟨-, hcompany, hhash⟩ := taken_eq_false.mp hfree
  refine ⟨?_, ?_⟩
  · rw [rows_insertSession hfree, List.map_append, List.map_singleton]
    refine List.nodup_append.mpr ⟨h.companies, List.nodup_singleton _, ?_⟩
    intro c hc c' hc' heq
    obtain ⟨row', hrow', rfl⟩ := List.mem_map.mp hc
    rw [List.mem_singleton.mp hc'] at heq
    exact Bool.false_ne_true (hcompany.symm.trans (hasCompany_iff.mpr ⟨row', hrow', heq⟩))
  · rw [rows_insertSession hfree, List.map_append, List.map_singleton]
    refine List.nodup_append.mpr ⟨h.hashes, List.nodup_singleton _, ?_⟩
    intro c hc c' hc' heq
    obtain ⟨row', hrow', rfl⟩ := List.mem_map.mp hc
    rw [List.mem_singleton.mp hc'] at heq
    exact Bool.false_ne_true (hhash.symm.trans (hasHash_iff.mpr ⟨row', hrow', heq⟩))

theorem Keeps.inserted : db.Keeps (db.apply (.insertSession row)) where
  clock := Nat.le_refl _
  sessions {r} hr := by
    refine ⟨r.revokedAt, ?_⟩
    rw [rows_insertSession hfree]
    exact List.mem_append_left _ hr
  companies hc := .inl hc

/-- A lock that does not stand in the way of an insert guards nothing that it changes. -/
theorem Same.inserted (htable : l ≠ .shareRowExclusive) (hid : l ≠ .id row.id)
    (hcompany : l ≠ .companyCode row.companyCode) (hhash : l ≠ .tokenHash row.tokenHash) :
    Same l db (db.apply (.insertSession row)) := by
  cases l with
  | shareRowExclusive => exact absurd rfl htable
  | rowExclusive => trivial
  | id id =>
      refine Eq.trans ?_ (Table.get?_insert (taken_eq_false.mp hfree).1).symm
      rw [if_neg fun h => hid (by rw [h])]
  | companyCode c =>
      refine Eq.trans ?_ (hasCompany_insertSession hfree c).symm
      rw [decide_eq_false fun h => hcompany (by rw [h]), Bool.or_false]
  | tokenHash h =>
      refine Eq.trans ?_ (hasHash_insertSession hfree h).symm
      rw [decide_eq_false fun he => hhash (by rw [he]), Bool.or_false]

theorem retained_insertSession : (db.apply (.insertSession row)).retained = db.retained + 1 := by
  show (db.apply (.insertSession row)).demoSessions.rows.length = _
  rw [rows_insertSession hfree, List.length_append]
  rfl

theorem active_insertSession : (db.apply (.insertSession row)).active ≤ db.active + 1 := by
  have hselect : (db.apply (.insertSession row)).demoSessions.select (·.isActive db.clock)
      = db.demoSessions.select (·.isActive db.clock) ++ [row].filter (·.isActive db.clock) :=
    Table.select_insert (taken_eq_false.mp hfree).1
  have hone : ([row].filter (·.isActive db.clock)).length ≤ 1 := List.length_filter_le _ _
  show ((db.apply (.insertSession row)).demoSessions.select (·.isActive db.clock)).length ≤ _
  rw [hselect, List.length_append]
  exact Nat.add_le_add_left hone _

end Inserted

/-- Sessions only expire while nobody changes them. -/
theorem active_le (hrows : db.demoSessions = db'.demoSessions) (hclock : db.clock ≤ db'.clock) :
    db'.active ≤ db.active := by
  unfold active
  rw [← hrows]
  refine (List.monotone_filter_right _ fun row hactive => ?_).length_le
  unfold SessionRow.isActive at hactive ⊢
  rw [Bool.and_eq_true, decide_eq_true_eq] at hactive ⊢
  exact ⟨hactive.1, Nat.lt_of_le_of_lt hclock hactive.2⟩

/-! ## What happens besides -/

theorem Moves.distinct {L : List DemoSessionsLock} (hm : db.Moves L db') (h : db.Distinct) :
    db'.Distinct := by
  cases hm with
  | tick now hnow => exact ⟨h.companies, h.hashes⟩
  | createDataset row hrow => exact ⟨h.companies, h.hashes⟩
  | revoke p deleted now demoSessions hnow hrows => exact h.revoked hrows

theorem Moves.keeps {L : List DemoSessionsLock} (hm : db.Moves L db') : db.Keeps db' := by
  cases hm with
  | tick now hnow => exact ⟨hnow, fun {row} hrow => ⟨row.revokedAt, hrow⟩, .inl⟩
  | createDataset row hrow =>
      refine ⟨Nat.le_refl _, fun {row} hrow => ⟨row.revokedAt, hrow⟩, fun {c} hc => ?_⟩
      rcases List.mem_append.mp hc with hc | hc
      · exact .inl hc
      · exact .inr (hasCompany_iff.mpr ⟨row, hrow, (List.mem_singleton.mp hc).symm⟩)
  | revoke p deleted now demoSessions hnow hrows =>
      exact .revoked hrows (Nat.le_refl _) fun c hc => (List.mem_filter.mp hc).1

theorem Moves.same {L : List DemoSessionsLock} (hm : db.Moves L db')
    (hl : ∀ m ∈ L, ¬ DemoSessionsLock.conflict m l) : Same l db db' := by
  cases hm with
  | tick now hnow => cases l <;> trivial
  | createDataset row hrow => cases l <;> trivial
  | revoke p deleted now demoSessions hnow hrows =>
      refine .revoked hrows ?_ fun row hrow hp => ?_
      · rintro rfl
        exact hl .rowExclusive List.mem_cons_self trivial
      · rintro rfl
        refine hl (.id row.id) (List.mem_cons_of_mem _ ?_) rfl
        exact List.mem_map_of_mem (Table.mem_select.mpr ⟨hrow, hp⟩)

end SessionDatabase

end CostEngine
