/-
# Upgrades

Whatever releases have migrated a database, up to whatever versions and with whatever
failures between, it is the database that the first migrations of the plan make one after
the other, and a release that succeeds leaves what it makes of a new database.
-/
import Erabi.Relational.Transaction
import Erabi.Schema.Runner
import Erabi.Transition.Run

namespace Erabi.Schema

open Relational Transaction

variable {Product : Type} {runtime : Runtime Product} {timestamp : Migration → String}

/-! ## Plans -/

/-- Versions that increase, none of which is empty. -/
structure Ordered (plan : List Migration) : Prop where
  nonempty : ∀ migration ∈ plan, migration.version ≠ ""
  increasing : plan.Pairwise fun a b => a.version < b.version

/-- The check of the plan decides its order. -/
theorem validateVersions_eq_ok {plan : List Migration} {previous : Option String} :
    MigrationRunner.validateVersions previous plan = .ok () ↔
      Ordered plan ∧ ∀ version ∈ previous, ∀ migration ∈ plan, version < migration.version := by
  induction plan generalizing previous with
  | nil =>
    refine ⟨fun _ => ⟨⟨?_, List.Pairwise.nil⟩, ?_⟩, fun _ => rfl⟩
    · intro migration hm
      cases hm
    · intro version _ migration hm
      cases hm
  | cons migration plan ih =>
    rw [MigrationRunner.validateVersions]
    constructor
    · intro h
      split_ifs at h with hempty hprevious
      obtain ⟨hordered, hlt⟩ := ih.mp h
      have hafter : ∀ later ∈ plan, migration.version < later.version := hlt _ rfl
      refine ⟨⟨?_, List.pairwise_cons.mpr ⟨hafter, hordered.increasing⟩⟩, ?_⟩
      · intro m hm
        rcases List.mem_cons.mp hm with rfl | hm
        · exact hempty
        · exact hordered.nonempty m hm
      · intro version hversion m hm
        have hfirst : version < migration.version := by
          cases hversion
          simpa using hprevious
        rcases List.mem_cons.mp hm with rfl | hm
        · exact hfirst
        · exact hfirst.trans (hafter m hm)
    · rintro ⟨hordered, hlt⟩
      have hsplit := List.pairwise_cons.mp hordered.increasing
      rw [if_neg (hordered.nonempty migration List.mem_cons_self), if_neg]
      · refine ih.mpr ⟨⟨fun m hm => hordered.nonempty m (List.mem_cons_of_mem _ hm), hsplit.2⟩, ?_⟩
        intro version hversion m hm
        cases hversion
        exact hsplit.1 m hm
      · cases previous with
        | none => simp
        | some version => simpa using hlt version rfl migration List.mem_cons_self

/-- A plan that passes is ordered and has a migration. -/
theorem validatePlan_eq_ok {runner : MigrationRunner} :
    runner.validatePlan = .ok () ↔ runner.migrations ≠ [] ∧ Ordered runner.migrations := by
  unfold MigrationRunner.validatePlan
  split
  · rename_i hnil
    exact ⟨fun h => (by cases h), fun h => absurd hnil h.1⟩
  · rename_i hne
    rw [validateVersions_eq_ok]
    exact ⟨fun h => ⟨hne, h.1⟩, fun h => ⟨h.2, fun version hv => by cases hv⟩⟩

/-! ## A migrated database -/

/-- What a migration is recorded as, apart from the time. -/
def Migration.identity (runtime : Runtime Product) (migration : Migration) :
    String × String × String :=
  (migration.version, migration.name, runtime.checksum migration.sql)

/-- What a step is known by. -/
def SchemaVersion.identity (recorded : SchemaVersion) : String × String × String :=
  (recorded.version, recorded.name, recorded.checksum)

/-- Scripts one after the other. -/
def runScripts (runtime : Runtime Product) (migrations : List Migration) (origin : Product) :
    Except String Product :=
  migrations.foldlM (fun product migration => runtime.execute migration.sql product) origin

/-- The first migrations of the plan have run, in their order, and nothing else. -/
structure Migrated (runtime : Runtime Product) (plan : List Migration) (origin : Product)
    (db : Database Product) (k : ℕ) : Prop where
  recorded : db.versions.rows.map SchemaVersion.identity =
    (plan.take k).map (Migration.identity runtime)
  product : runScripts runtime (plan.take k) origin = .ok db.product
  free : db.locked = false

namespace Migrated

variable {plan : List Migration} {origin : Product} {db db' : Database Product} {k : ℕ}

/-- A new database has nothing applied. -/
theorem new (plan : List Migration) (origin : Product) :
    Migrated runtime plan origin ⟨origin, .empty, false⟩ 0 :=
  ⟨rfl, rfl, rfl⟩

/-- The versions that are recorded, in the order of the plan. -/
theorem versions (h : Migrated runtime plan origin db k) :
    db.versions.rows.map SchemaVersion.version = (plan.take k).map Migration.version := by
  have hfirst := congrArg (List.map Prod.fst) h.recorded
  rw [List.map_map, List.map_map] at hfirst
  exact hfirst

/-- The recorded versions are read in the order of the plan. -/
theorem readSchemaVersions (h : Migrated runtime plan origin db k) (hordered : Ordered plan) :
    db.readSchemaVersions = db.versions.rows := by
  refine List.Pairwise.insertionSort_eq ?_
  have hsorted : (db.versions.rows.map SchemaVersion.version).Pairwise (· ≤ ·) := by
    rw [h.versions]
    exact List.pairwise_map.mpr ((hordered.increasing.sublist (List.take_sublist ..)).imp le_of_lt)
  exact List.pairwise_map.mp hsorted

/-- The migration at a place of the plan is recorded if it is one of the first, and then
with its checksum. -/
theorem find_of_lt (h : Migrated runtime plan origin db k) {i : ℕ} {migration : Migration}
    (hi : plan[i]? = some migration) (hlt : i < k) :
    ∃ recorded, db.versions.find? migration.version = some recorded ∧
      recorded.checksum = runtime.checksum migration.sql := by
  have hget : ((plan.take k).map (Migration.identity runtime))[i]? =
      some (migration.identity runtime) := by
    rw [List.getElem?_map, List.getElem?_take_of_lt hlt, hi]
    rfl
  rw [← h.recorded, List.getElem?_map] at hget
  obtain ⟨recorded, hrecorded, hidentity⟩ := Option.map_eq_some_iff.mp hget
  have hversion : recorded.version = migration.version := congrArg Prod.fst hidentity
  refine ⟨recorded, Table.find?_eq_some.mpr ⟨List.mem_of_getElem? hrecorded, hversion⟩, ?_⟩
  exact congrArg (fun identity => identity.2.2) hidentity

/-- A step that is still to come is not recorded. -/
theorem find_of_le (h : Migrated runtime plan origin db k) (hordered : Ordered plan) {i : ℕ}
    {migration : Migration} (hi : plan[i]? = some migration) (hle : k ≤ i) :
    db.versions.find? migration.version = none := by
  refine Table.find?_eq_none.mpr fun recorded hmem hversion => ?_
  have hin : migration.version ∈ (plan.take k).map Migration.version := by
    rw [← h.versions, ← hversion]
    exact List.mem_map_of_mem hmem
  obtain ⟨earlier, hearlier, hsame⟩ := List.mem_map.mp hin
  obtain ⟨l, hl⟩ := List.mem_iff_getElem?.mp hearlier
  have hlt : l < k := by
    have := (List.getElem?_eq_some_iff.mp hl).1
    rw [List.length_take] at this
    omega
  rw [List.getElem?_take_of_lt hlt] at hl
  obtain ⟨hl', rfl⟩ := List.getElem?_eq_some_iff.mp hl
  obtain ⟨hi', rfl⟩ := List.getElem?_eq_some_iff.mp hi
  have hincreasing := List.pairwise_iff_getElem.mp hordered.increasing l i hl' hi' (by omega)
  exact hincreasing.ne hsame

/-- One more migration of the plan. -/
theorem runScripts_succ {i : ℕ} {migration : Migration} (hi : plan[i]? = some migration)
    (origin : Product) : runScripts runtime (plan.take (i + 1)) origin =
      runScripts runtime (plan.take i) origin >>= runtime.execute migration.sql := by
  rw [runScripts, List.take_add_one, hi, Option.toList_some, List.foldlM_append]
  simp only [List.foldlM_cons, List.foldlM_nil, bind_pure]
  rfl

/-- A recorded step is found in the table. -/
theorem find_rows (db : Database Product) (version : String) :
    (db.versions.rows.find? fun recorded => recorded.version = version) =
      db.versions.find? version := rfl

/-- A pass of the loop takes a database from one migration to the next. -/
theorem applyMigration_eq_ok (h : Migrated runtime plan origin db k) (hordered : Ordered plan)
    {i : ℕ} {migration : Migration} (hi : plan[i]? = some migration)
    {state : Database Product × List String}
    (hstate : Migrated runtime plan origin state.1 (max k i)) {next : Database Product × List String}
    (hnext : MigrationRunner.applyMigration runtime timestamp db.versions.rows state migration = .ok next) :
    Migrated runtime plan origin next.1 (max k (i + 1)) ∧
      next.2 = state.2 ++ if i < k then [] else [migration.version] := by
  unfold MigrationRunner.applyMigration at hnext
  rw [find_rows] at hnext
  by_cases hlt : i < k
  · obtain ⟨recorded, hrecorded, hchecksum⟩ := h.find_of_lt hi hlt
    rw [hrecorded] at hnext
    dsimp only at hnext
    rw [if_neg (not_not.mpr hchecksum)] at hnext
    cases hnext
    rw [max_eq_left (by omega)] at hstate ⊢
    exact ⟨hstate, by rw [if_pos hlt, List.append_nil]⟩
  · have hle : k ≤ i := not_lt.mp hlt
    rw [max_eq_right (by omega)] at hstate ⊢
    rw [h.find_of_le hordered hi hle] at hnext
    dsimp only at hnext
    cases hexecute : runtime.execute migration.sql state.1.product with
    | error error =>
      rw [hexecute] at hnext
      cases hnext
    | ok product =>
      rw [hexecute] at hnext
      dsimp only at hnext
      split at hnext
      · cases hnext
      · rename_i versions hinsert
        cases hnext
        obtain ⟨-, hrows⟩ := Table.insert?_eq_some.mp hinsert
        refine ⟨⟨?_, ?_, hstate.free⟩, by rw [if_neg hlt]⟩
        · change versions.rows.map SchemaVersion.identity = _
          rw [hrows, List.map_append, hstate.recorded, List.take_add_one, hi, List.map_append]
          rfl
        · rw [runScripts_succ hi, hstate.product]
          exact hexecute

/-- The loop over the first migrations takes the database that far, if it was not further
already. -/
theorem applyMigrations_eq_ok (h : Migrated runtime plan origin db k) (hordered : Ordered plan)
    {i : ℕ} (hi : i ≤ plan.length) {next : Database Product × List String}
    (hnext : (plan.take i).foldlM (MigrationRunner.applyMigration runtime timestamp db.versions.rows)
      (db, []) = .ok next) :
    Migrated runtime plan origin next.1 (max k i) ∧
      next.2 = ((plan.take i).drop k).map Migration.version := by
  induction i generalizing next with
  | zero =>
    cases hnext
    rw [max_eq_left (Nat.zero_le k)]
    exact ⟨h, by simp⟩
  | succ i ih =>
    have hget : plan[i]? = some plan[i] := List.getElem?_eq_getElem hi
    rw [List.take_add_one, hget, Option.toList_some, List.foldlM_append] at hnext
    obtain ⟨state, hstate, hlast⟩ := except_bind_eq_ok.mp hnext
    obtain ⟨hmigrated, hreport⟩ := ih (Nat.le_of_succ_le hi) hstate
    rw [List.foldlM_cons] at hlast
    obtain ⟨last, hlast, hnil⟩ := except_bind_eq_ok.mp hlast
    cases hnil
    obtain ⟨hmigrated', hreport'⟩ := h.applyMigration_eq_ok hordered hget hmigrated hlast
    refine ⟨hmigrated', ?_⟩
    rw [hreport', hreport, List.take_add_one, hget, Option.toList_some, List.drop_append,
      List.map_append, List.length_take, min_eq_left (Nat.le_of_succ_le hi)]
    congr 1
    split
    · rw [List.drop_of_length_le (by rw [List.length_singleton]; omega), List.map_nil]
    · rw [Nat.sub_eq_zero_of_le (by omega), List.drop_zero, List.map_singleton]

/-- Scripts that run run as far as one likes. -/
theorem runScripts_take {migrations : List Migration} {product : Product}
    (h : runScripts runtime migrations origin = .ok product) (i : ℕ) :
    ∃ before, runScripts runtime (migrations.take i) origin = .ok before := by
  rw [← List.take_append_drop i migrations, runScripts, List.foldlM_append] at h
  obtain ⟨before, hbefore, -⟩ := except_bind_eq_ok.mp h
  exact ⟨before, hbefore⟩

/-- A pass goes through if the script of the migration runs, or has run. -/
theorem applyMigration_succeeds (h : Migrated runtime plan origin db k) (hordered : Ordered plan)
    {i : ℕ} {migration : Migration} (hi : plan[i]? = some migration)
    {state : Database Product × List String}
    (hstate : Migrated runtime plan origin state.1 (max k i)) {product : Product}
    (hproduct : runScripts runtime (plan.take (i + 1)) origin = .ok product) :
    ∃ next, MigrationRunner.applyMigration runtime timestamp db.versions.rows state migration =
      .ok next := by
  unfold MigrationRunner.applyMigration
  rw [find_rows]
  by_cases hlt : i < k
  · obtain ⟨recorded, hrecorded, hchecksum⟩ := h.find_of_lt hi hlt
    rw [hrecorded]
    dsimp only
    rw [if_neg (not_not.mpr hchecksum)]
    exact ⟨state, rfl⟩
  · have hle : k ≤ i := not_lt.mp hlt
    rw [max_eq_right (by omega)] at hstate
    rw [h.find_of_le hordered hi hle]
    dsimp only
    have hexecute : runtime.execute migration.sql state.1.product = .ok product := by
      rw [runScripts_succ hi, hstate.product] at hproduct
      exact hproduct
    rw [hexecute]
    dsimp only
    cases hversions : state.1.versions.insert? ⟨migration.version, migration.name,
      runtime.checksum migration.sql, timestamp migration⟩ with
    | some versions => exact ⟨_, rfl⟩
    | none =>
      unfold Table.insert? at hversions
      rw [dif_pos (hstate.find_of_le hordered hi le_rfl)] at hversions
      cases hversions

/-- The loop goes through if its scripts do. -/
theorem applyMigrations_succeeds (h : Migrated runtime plan origin db k) (hordered : Ordered plan)
    {i : ℕ} (hi : i ≤ plan.length) {product : Product}
    (hproduct : runScripts runtime (plan.take i) origin = .ok product) :
    ∃ next, (plan.take i).foldlM
      (MigrationRunner.applyMigration runtime timestamp db.versions.rows) (db, []) =
        .ok next := by
  induction i generalizing product with
  | zero => exact ⟨(db, []), rfl⟩
  | succ i ih =>
    have hget : plan[i]? = some plan[i] := List.getElem?_eq_getElem hi
    obtain ⟨before, hbefore⟩ := runScripts_take hproduct i
    rw [List.take_take, min_eq_left (Nat.le_succ i)] at hbefore
    obtain ⟨state, hstate⟩ := ih (Nat.le_of_succ_le hi) hbefore
    have hmigrated := (h.applyMigrations_eq_ok hordered (Nat.le_of_succ_le hi) hstate).1
    obtain ⟨next, hnext⟩ : ∃ next, MigrationRunner.applyMigration runtime timestamp
        db.versions.rows state plan[i] = .ok next :=
      h.applyMigration_succeeds hordered hget hmigrated hproduct
    refine ⟨next, ?_⟩
    rw [List.take_add_one, hget, Option.toList_some, List.foldlM_append, hstate]
    simp only [List.foldlM_cons, List.foldlM_nil, bind_pure]
    exact hnext

end Migrated

/-! ## One release -/

section Release

variable {runner : MigrationRunner} {plan : List Migration} {origin : Product}
  {db : Database Product} {k : ℕ} {lastVersion : Option String}

/-- The versions that the plan knows. -/
theorem knows_iff {version : String} :
    runner.knows version = true ↔ version ∈ runner.migrations.map Migration.version := by
  rw [MigrationRunner.knows, List.any_eq_true, List.mem_map]
  exact exists_congr fun migration => and_congr_right fun _ => decide_eq_true_iff

/-- The check of the applied steps decides whether all are known. -/
theorem validateAppliedVersions_eq_ok {applied : List SchemaVersion} :
    runner.validateAppliedVersions applied = .ok () ↔
      ∀ recorded ∈ applied, runner.knows recorded.version = true := by
  unfold MigrationRunner.validateAppliedVersions
  split
  · rename_i recorded hfind
    refine ⟨fun h => (by cases h), fun h => ?_⟩
    have hunknown := List.find?_some hfind
    rw [h recorded (List.mem_of_find?_eq_some hfind)] at hunknown
    cases hunknown
  · rename_i hnone
    refine ⟨fun _ recorded hmem => ?_, fun _ => rfl⟩
    simpa using List.find?_eq_none.mp hnone recorded hmem

/-- What an application checks before its loop. -/
theorem applyUntil_eq_ok {next : Database Product × List String} :
    runner.applyUntil runtime timestamp lastVersion db = .ok next ↔
      (runner.migrations ≠ [] ∧ Ordered runner.migrations) ∧ db.locked = false ∧
        (∀ recorded ∈ db.readSchemaVersions, runner.knows recorded.version = true) ∧
          (runner.upTo lastVersion).foldlM
            (MigrationRunner.applyMigration runtime timestamp db.readSchemaVersions) (db, []) =
              .ok next := by
  rw [MigrationRunner.applyUntil, except_bind_eq_ok, MigrationRunner.applyInTransaction]
  constructor
  · rintro ⟨⟨⟩, hplan, h⟩
    split at h
    · cases h
    · rename_i hfree
      obtain ⟨⟨⟩, happlied, hloop⟩ := except_bind_eq_ok.mp h
      exact ⟨validatePlan_eq_ok.mp hplan, Bool.eq_false_iff.mpr hfree,
        validateAppliedVersions_eq_ok.mp happlied, hloop⟩
  · rintro ⟨hplan, hfree, happlied, hloop⟩
    refine ⟨(), validatePlan_eq_ok.mpr hplan, ?_⟩
    rw [if_neg (Bool.eq_false_iff.mp hfree)]
    exact except_bind_eq_ok.mpr ⟨(), validateAppliedVersions_eq_ok.mpr happlied, hloop⟩

/-- The migrations up to a version are the first ones. -/
theorem upTo_eq_take (runner : MigrationRunner) (lastVersion : Option String) :
    ∃ i ≤ runner.migrations.length, runner.upTo lastVersion = runner.migrations.take i := by
  have hprefix : runner.upTo lastVersion <+: runner.migrations := List.takeWhile_prefix _
  exact ⟨_, hprefix.length_le, List.prefix_iff_eq_take.mp hprefix⟩

/-- Without a bound the whole plan is applied. -/
theorem upTo_none (runner : MigrationRunner) : runner.upTo none = runner.migrations :=
  List.takeWhile_eq_self_iff.mpr fun _ _ => rfl

end Release

/-! ## Releases one after the other -/

/-- The runner of a release, which bundles the first migrations of the plan. -/
def release (plan : List Migration) (n : ℕ) : MigrationRunner := ⟨plan.take n⟩

/-- A release opens the database, and migrates all it knows or up to a version. -/
structure Upgrade where
  bundled : ℕ
  lastVersion : Option String
  timestamp : Migration → String

/-- One upgrade of a database. -/
def Upgrade.run (runtime : Runtime Product) (plan : List Migration) (upgrade : Upgrade)
    (db : Database Product) : Except DbError (Database Product × List String) :=
  match upgrade.lastVersion with
  | none => (release plan upgrade.bundled).apply runtime upgrade.timestamp db
  | some version =>
      (release plan upgrade.bundled).applyThrough runtime upgrade.timestamp version db

/-- A failure is rolled back. -/
def step (runtime : Runtime Product) (plan : List Migration) (db : Database Product)
    (upgrade : Upgrade) : Database Product :=
  match upgrade.run runtime plan db with
  | .ok next => next.1
  | .error _ => db

/-- A database without tables of the product. -/
def Database.new (origin : Product) : Database Product := ⟨origin, .empty, false⟩

section Upgrades

variable {plan : List Migration} {origin : Product} {db : Database Product} {k : ℕ}

/-- A release that knows what is recorded bundles all the migrations that have run. -/
theorem Migrated.of_release (h : Migrated runtime plan origin db k) {n : ℕ}
    (hknows : ∀ recorded ∈ db.versions.rows, (release plan n).knows recorded.version = true) :
    ∃ k, Migrated runtime (release plan n).migrations origin db k := by
  change ∃ k, Migrated runtime (plan.take n) origin db k
  rcases le_total k n with hle | hle
  · refine ⟨k, ⟨?_, ?_, h.free⟩⟩
    · rw [List.take_take, min_eq_left hle, h.recorded]
    · rw [List.take_take, min_eq_left hle, h.product]
  · -- Versions are recorded once, so what the release bundles covers no more than itself.
    have htake : plan.take k = plan.take n := by
      have hnodup : ((plan.take k).map Migration.version).Nodup :=
        h.versions ▸ db.versions.keysNodup
      have hsplit : plan.take k = plan.take n ++ (plan.take k).drop n := by
        rw [← min_eq_left hle, ← List.take_take, min_eq_left hle, List.take_append_drop]
      cases hrest : (plan.take k).drop n with
      | nil => rw [hsplit, hrest, List.append_nil]
      | cons migration rest =>
        rw [hsplit, hrest, List.map_append, List.nodup_append] at hnodup
        have hmem : migration.version ∈ db.versions.rows.map SchemaVersion.version := by
          rw [h.versions, hsplit, hrest]
          simp
        obtain ⟨recorded, hrecorded, hversion⟩ := List.mem_map.mp hmem
        have hknown := knows_iff.mp (hknows recorded hrecorded)
        rw [hversion] at hknown
        exact absurd rfl (hnodup.2.2 _ hknown _ (List.mem_map_of_mem List.mem_cons_self))
    exact ⟨n, ⟨by rw [h.recorded, htake, List.take_take, min_self],
      by rw [List.take_take, min_self, ← htake, h.product], h.free⟩⟩

/-- What the release has migrated the plan has. -/
theorem Migrated.of_take {n : ℕ} (h : Migrated runtime (plan.take n) origin db k) :
    Migrated runtime plan origin db (min k n) := by
  refine ⟨?_, ?_, h.free⟩
  · rw [h.recorded, List.take_take]
  · rw [← h.product, List.take_take]

/-- A release that succeeds leaves a migrated database. -/
theorem Migrated.applyUntil {runner : MigrationRunner} {lastVersion : Option String}
    (h : Migrated runtime runner.migrations origin db k) {next : Database Product × List String}
    (hnext : runner.applyUntil runtime timestamp lastVersion db = .ok next) :
    ∃ i ≤ runner.migrations.length, runner.upTo lastVersion = runner.migrations.take i ∧
      Migrated runtime runner.migrations origin next.1 (max k i) ∧
        next.2 = ((runner.migrations.take i).drop k).map Migration.version := by
  obtain ⟨⟨-, hordered⟩, -, -, hloop⟩ := applyUntil_eq_ok.mp hnext
  obtain ⟨i, hi, hupTo⟩ := upTo_eq_take runner lastVersion
  rw [h.readSchemaVersions hordered, hupTo] at hloop
  exact ⟨i, hi, hupTo, h.applyMigrations_eq_ok hordered hi hloop⟩

/-- Every upgrade leaves a database that the plan has migrated. -/
theorem Migrated.step (h : ∃ k, Migrated runtime plan origin db k) (upgrade : Upgrade) :
    ∃ k, Migrated runtime plan origin (step runtime plan db upgrade) k := by
  unfold Schema.step
  split
  · rename_i next hnext
    obtain ⟨k, hk⟩ := h
    obtain ⟨lastVersion, happly⟩ : ∃ lastVersion, (release plan upgrade.bundled).applyUntil runtime
        upgrade.timestamp lastVersion db = .ok next := by
      unfold Upgrade.run at hnext
      split at hnext
      · exact ⟨none, hnext⟩
      · unfold MigrationRunner.applyThrough at hnext
        split at hnext
        · cases hnext
        · exact ⟨_, hnext⟩
    obtain ⟨⟨-, hordered⟩, -, happlied, -⟩ := applyUntil_eq_ok.mp happly
    obtain ⟨l, hl⟩ := hk.of_release fun recorded hmem =>
      happlied recorded ((List.perm_insertionSort _ _).mem_iff.mpr hmem)
    obtain ⟨i, -, -, hnew, -⟩ := hl.applyUntil happly
    exact ⟨_, hnew.of_take⟩
  · exact h

/-- Whatever upgrades there have been. -/
theorem Migrated.upgrades (runtime : Runtime Product) (plan : List Migration) (origin : Product)
    (upgrades : List Upgrade) : ∃ k, Migrated runtime plan origin
      (Transition.after (Schema.step runtime plan) (Database.new origin) upgrades) k :=
  Transition.after_invariant (I := fun db => ∃ k, Migrated runtime plan origin db k)
    (fun _ upgrade h => Migrated.step h upgrade) ⟨0, Migrated.new plan origin⟩ upgrades

section Apply

variable {runner : MigrationRunner}

/-- After a release has migrated all it knows, exactly its migrations have run. -/
theorem Migrated.apply (h : Migrated runtime runner.migrations origin db k)
    {next : Database Product × List String}
    (hnext : runner.apply runtime timestamp db = .ok next) :
    Migrated runtime runner.migrations origin next.1 runner.migrations.length ∧
      next.2 = (runner.migrations.drop k).map Migration.version := by
  obtain ⟨i, hi, hupTo, hnew, hreport⟩ := h.applyUntil hnext
  rw [upTo_none] at hupTo
  have hall : i = runner.migrations.length := by
    have hlength := congrArg List.length hupTo
    rw [List.length_take] at hlength
    omega
  subst hall
  rw [List.take_length] at hreport
  refine ⟨⟨?_, ?_, hnew.free⟩, hreport⟩
  · rw [hnew.recorded, List.take_length, List.take_of_length_le (le_max_right ..)]
  · rw [List.take_length, ← hnew.product, List.take_of_length_le (le_max_right ..)]

/-- A release that knows what is recorded succeeds if its plan is in order and its scripts run
one after the other. -/
theorem Migrated.apply_succeeds_iff (h : Migrated runtime runner.migrations origin db k) :
    (∃ next, runner.apply runtime timestamp db = .ok next) ↔
      (runner.migrations ≠ [] ∧ Ordered runner.migrations) ∧
        ∃ product, runScripts runtime runner.migrations origin = .ok product := by
  constructor
  · rintro ⟨next, hnext⟩
    have hproduct := (h.apply hnext).1.product
    rw [List.take_length] at hproduct
    exact ⟨(applyUntil_eq_ok.mp hnext).1, _, hproduct⟩
  · rintro ⟨hplan, product, hproduct⟩
    rw [← List.take_length (l := runner.migrations)] at hproduct
    obtain ⟨next, hnext⟩ : ∃ next, (runner.migrations.take runner.migrations.length).foldlM
        (MigrationRunner.applyMigration runtime timestamp db.versions.rows) (db, []) =
          .ok next := h.applyMigrations_succeeds hplan.2 le_rfl hproduct
    refine ⟨next, applyUntil_eq_ok.mpr ⟨hplan, h.free, ?_, ?_⟩⟩
    · intro recorded hmem
      rw [h.readSchemaVersions hplan.2] at hmem
      refine knows_iff.mpr (List.mem_of_mem_take (i := k) ?_)
      rw [← List.map_take, ← h.versions]
      exact List.mem_map_of_mem hmem
    · rw [h.readSchemaVersions hplan.2, upTo_none, ← List.take_length (l := runner.migrations)]
      exact hnext

end Apply

/-! ## Verification -/

/-- The comparison stops where either list does. -/
theorem validateRecorded_eq_ok {migrations : List Migration} {applied : List SchemaVersion} :
    MigrationRunner.validateRecorded runtime migrations applied = .ok () ↔
      (applied.map SchemaVersion.identity).take migrations.length =
        (migrations.map (Migration.identity runtime)).take applied.length := by
  induction migrations generalizing applied with
  | nil => simp [MigrationRunner.validateRecorded]
  | cons migration migrations ih =>
    cases applied with
    | nil => simp [MigrationRunner.validateRecorded]
    | cons recorded rest =>
      rw [MigrationRunner.validateRecorded, List.map_cons, List.map_cons, List.length_cons,
        List.length_cons, List.take_succ_cons, List.take_succ_cons, List.cons.injEq]
      simp only [SchemaVersion.identity, Migration.identity, Prod.mk.injEq]
      split_ifs with hidentity hchecksum
      · refine ⟨fun h => (by cases h), fun h => absurd h.1 ?_⟩
        rintro ⟨hversion, hname, -⟩
        exact hidentity.elim (fun h => h hversion) fun h => h hname
      · exact ⟨fun h => (by cases h), fun h => absurd h.1.2.2 hchecksum⟩
      · rw [ih]
        rw [not_or, not_not, not_not] at hidentity
        exact ⟨fun h => ⟨⟨hidentity.1, hidentity.2, not_not.mp hchecksum⟩, h⟩, fun h => h.2⟩

/-- A database is verified exactly if what is recorded, in the order of the versions, is the
plan. -/
theorem verify_eq_ok {runner : MigrationRunner} :
    runner.verify runtime db = .ok () ↔
      (runner.migrations ≠ [] ∧ Ordered runner.migrations) ∧
        db.readSchemaVersions.map SchemaVersion.identity =
          runner.migrations.map (Migration.identity runtime) := by
  rw [MigrationRunner.verify, except_bind_eq_ok]
  constructor
  · rintro ⟨⟨⟩, hplan, h⟩
    obtain ⟨⟨⟩, hrecorded, h⟩ := except_bind_eq_ok.mp h
    obtain ⟨⟨⟩, -, h⟩ := except_bind_eq_ok.mp h
    split_ifs at h with hlength
    rw [ne_eq, not_not] at hlength
    rw [validateRecorded_eq_ok, ← hlength, List.take_of_length_le (by simp)] at hrecorded
    refine ⟨validatePlan_eq_ok.mp hplan, ?_⟩
    rw [hrecorded, hlength, List.take_of_length_le (by simp)]
  · rintro ⟨hplan, hrecorded⟩
    have hlength : db.readSchemaVersions.length = runner.migrations.length := by
      simpa using congrArg List.length hrecorded
    refine ⟨(), validatePlan_eq_ok.mpr hplan, except_bind_eq_ok.mpr ⟨(), ?_,
      except_bind_eq_ok.mpr ⟨(), ?_, if_neg (not_not.mpr hlength)⟩⟩⟩
    · rw [validateRecorded_eq_ok, hrecorded, hlength]
    · refine validateAppliedVersions_eq_ok.mpr fun recorded hmem => knows_iff.mpr ?_
      have hversions := congrArg (List.map Prod.fst) hrecorded
      rw [List.map_map, List.map_map] at hversions
      have hmem' := List.mem_map_of_mem (f := Prod.fst ∘ SchemaVersion.identity) hmem
      rw [hversions] at hmem'
      exact hmem'

/-! ## Upgrades and a new database -/

/-- Whatever releases have opened a database before, a release migrates it exactly if it
migrates a new database and nothing is recorded that it does not know, and then leaves the
same product tables and records as there, having run what was missing, and verifies it. -/
theorem apply_after_upgrades (runtime : Runtime Product) (plan : List Migration)
    (origin : Product) (upgrades : List Upgrade) (n : ℕ) (timestamp timestamp' : Migration → String) :
    let db := Transition.after (step runtime plan) (Database.new origin) upgrades
    ((∃ next, (release plan n).apply runtime timestamp db = .ok next) ↔
      (∃ fresh, (release plan n).apply runtime timestamp' (Database.new origin) = .ok fresh) ∧
        ∀ recorded ∈ db.versions.rows, (release plan n).knows recorded.version = true) ∧
    ∀ next fresh, (release plan n).apply runtime timestamp db = .ok next →
      (release plan n).apply runtime timestamp' (Database.new origin) = .ok fresh →
        next.1.product = fresh.1.product ∧
          next.1.versions.rows.map SchemaVersion.identity =
            fresh.1.versions.rows.map SchemaVersion.identity ∧
              db.versions.rows.map SchemaVersion.version ++ next.2 = fresh.2 ∧
                (release plan n).verify runtime next.1 = .ok () := by
  intro db
  have hnew : Migrated runtime (release plan n).migrations origin (Database.new origin) 0 :=
    Migrated.new _ origin
  have hdb : ∀ next, (release plan n).apply runtime timestamp db = .ok next →
      ∀ recorded ∈ db.versions.rows, (release plan n).knows recorded.version = true :=
    fun next hnext recorded hmem => (applyUntil_eq_ok.mp hnext).2.2.1 recorded
      ((List.perm_insertionSort _ _).mem_iff.mpr hmem)
  obtain ⟨k, hk⟩ := Migrated.upgrades runtime plan origin upgrades
  refine ⟨⟨fun ⟨next, hnext⟩ => ⟨?_, hdb next hnext⟩, fun ⟨hfresh, hknows⟩ => ?_⟩, ?_⟩
  · obtain ⟨l, hl⟩ := hk.of_release (hdb next hnext)
    exact hnew.apply_succeeds_iff.mpr (Migrated.apply_succeeds_iff hl |>.mp ⟨next, hnext⟩)
  · obtain ⟨l, hl⟩ := hk.of_release hknows
    exact Migrated.apply_succeeds_iff hl |>.mpr (hnew.apply_succeeds_iff.mp hfresh)
  · intro next fresh hnext hfresh
    obtain ⟨l, hl⟩ := hk.of_release (hdb next hnext)
    obtain ⟨hmigrated, hreport⟩ := Migrated.apply hl hnext
    obtain ⟨hmigrated', hreport'⟩ := hnew.apply hfresh
    refine ⟨?_, ?_, ?_, ?_⟩
    · exact Except.ok.inj (hmigrated.product.symm.trans hmigrated'.product)
    · rw [hmigrated.recorded, hmigrated'.recorded]
    · rw [hl.versions, hreport, hreport', ← List.map_append, List.drop_zero]
      exact congrArg (List.map Migration.version) (List.take_append_drop ..)
    · have hplan := (applyUntil_eq_ok.mp hnext).1
      rw [verify_eq_ok, hmigrated.readSchemaVersions hplan.2, hmigrated.recorded,
        List.take_length]
      exact ⟨hplan, rfl⟩

/-- Tables that are the scripts that made them. -/
def scriptRuntime : Runtime (List String) where
  execute sql tables := if sql = "" then .error "no statement" else .ok (tables ++ [sql])
  checksum sql := sql

/-- A plan of two steps. -/
def systemAndRuns : List Migration :=
  [⟨"0001", "system", "CREATE TABLE system"⟩, ⟨"0002", "runs", "CREATE TABLE runs"⟩]

/-- The second step is applied after the first, as in a new database. -/
theorem apply_after_upgrade_of_system :
    ∃ next fresh,
      (release systemAndRuns 2).apply scriptRuntime (fun _ => "unix:2")
        (Transition.after (step scriptRuntime systemAndRuns) (Database.new [])
          [⟨1, none, fun _ => "unix:1"⟩]) = .ok next ∧
      (release systemAndRuns 2).apply scriptRuntime (fun _ => "unix:3") (Database.new []) =
        .ok fresh ∧ next.2 = ["0002"] ∧ next.1.product = fresh.1.product :=
  ⟨_, _, rfl, rfl, rfl, ((apply_after_upgrades scriptRuntime systemAndRuns []
    [⟨1, none, fun _ => "unix:1"⟩] 2 (fun _ => "unix:2") fun _ => "unix:3").2 _ _ rfl rfl).1⟩

end Upgrades

end Erabi.Schema
