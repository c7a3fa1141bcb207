import CostEngine.Graph.Levels
import CostEngine.System.Scripts
import CostEngine.Transaction.CreationLocks
import CostEngine.Transaction.LifecycleLocks

/-! # Deadlocks

Every transaction takes its locks in the order of the levels, so there is no deadlock while the
domains that are required together can be put on levels in the order of their names. Where
they cannot, a first Run that holds one required series and asks for another closes a circle,
although no domain requires itself. -/

namespace CostEngine

open Concurrency (Action Chain Discipline Machine Stage Thread play)
open Relational (Table)

variable {honours : Prop} {st : System} {level : String → ℕ}

/-! ## Layered configurations -/

namespace Store

variable {s : Store}

/-- Unless the order in which domains are locked runs in a circle, they can be put on levels. -/
theorem exists_layered : Graph.Acyclic s.LockedBefore ↔ ∃ level, s.Layered level := by
  refine Graph.acyclic_iff_exists_level
    (s.domainRequirements.flatMap fun p => [p.1, p.2]).toFinset fun domain domain' h => ?_
  rw [List.mem_toFinset, List.mem_flatMap]
  cases h with
  | requires h => exact ⟨_, h, List.mem_cons_self⟩
  | together h h' hlt => exact ⟨_, h, List.mem_cons_of_mem _ List.mem_cons_self⟩

/-- When no domain requires two others, it is enough that none requires itself. -/
theorem lockedBefore_acyclic (hacyclic : Graph.Acyclic s.DomainRequires)
    (hone : ∀ domain required required', s.DomainRequires domain required →
      s.DomainRequires domain required' → required = required') :
    Graph.Acyclic s.LockedBefore := by
  have hrequires : s.LockedBefore ≤ s.DomainRequires := by
    intro x y hxy
    cases hxy with
    | requires h => exact h
    | together h h' hlt => exact absurd (hone _ _ _ h h') hlt.ne
  exact fun domain h => hacyclic domain (Relation.TransGen.mono hrequires _ _ h)

end Store

/-! ## No deadlock -/

/-- **Every transaction takes its locks in the order of the levels.** -/
theorem Transaction.locks_body {g : Moment} {env : TxEnv} {t : Transaction}
    (hpre : t.Pre honours g) (hinv : Invariant honours g) (hlayered : g.db.Layered level) :
    Tx.LocksInOrder honours level g env [] [] (t.body env) fun _ _ _ => True := by
  cases t with
  | createDatasetVersion input => exact locks_createDatasetVersion
  | prepareCalculationJobRun jobId => exact locks_prepareCalculationJobRun hinv hlayered
  | prepareFailedCalculationJobRetry state =>
      exact locks_prepareFailedCalculationJobRetry hinv hpre
  | beginDispatch d => exact locks_beginDispatch hinv
  | recordDispatchOutcome c outcome => exact locks_recordDispatchOutcome hinv hpre.1
  | applyReconciliation context executorStatus => exact locks_applyReconciliation hinv hpre.1
  | submitDatasetValidation id => exact locks_submitDatasetValidation hinv
  | decideValidatedDataset id seriesId decision => exact locks_decideValidatedDataset hinv
  | abandonDatasetVersion id seriesId => exact locks_abandonDatasetVersion hinv

/-- What `randomUUID` promises of the ids that the open transactions have drawn and will draw: no
row has one of them, and no two transactions draw the same. -/
structure FreshUuids (st : System) : Prop where
  unused : ∀ i env, (st.threads i).env? = some env → ∀ n, st.shared.db.Unused (env.uuid n)
  distinct : ∀ i j env env', i ≠ j → (st.threads i).env? = some env →
    (st.threads j).env? = some env' → ∀ n k, env.uuid n ≠ env'.uuid k

/-- If the locks of every open transaction follow the order, no transactions wait for each other
in a circle. -/
theorem not_deadlock_of_follows {honours : Prop} {st : System} {level : String → ℕ}
    (h : Reachable honours st) (hfresh : FreshUuids st)
    (hfollows : ∀ i req log t k a, st.threads i = .inTxn req log t k a →
      Chain (LockFollows level st.shared.db a.env) a.locks
        ∧ ∀ l p, a.rest = .acquire l p → LockFollows level st.shared.db a.env a.locks l) :
    ¬ (machine honours).Deadlock st := by
  -- Whoever waits asks for a row that comes next.
  have hnext : ∀ i j l, (machine honours).Waits st i j → (st.threads i).request = some l →
      ∃ env, (st.threads i).env? = some env
        ∧ l.row.Next level st.shared.db env (st.threads i).locks := by
    rintro i j l ⟨hij, l₁, hl₁, m, hm, hconflict⟩ hl
    obtain rfl := Option.some.inj (hl₁.symm.trans hl)
    obtain ⟨req, log, t, k, a, p, hi, hr⟩ := Thread.of_request hl
    obtain ⟨req', log', t', k', a', hj⟩ := Thread.of_mem_locks hm
    obtain ⟨hchain, hask⟩ := hfollows i req log t k a hi
    obtain ⟨hchain', -⟩ := hfollows j req' log' t' k' a' hj
    have henv : (st.threads i).env? = some a.env := by rw [hi]; rfl
    have henv' : (st.threads j).env? = some a'.env := by rw [hj]; rfl
    have hfree := h.safe.exclusive i j hij
    rw [hi, hj] at hfree
    rw [hj] at hm
    refine ⟨a.env, henv, ?_⟩
    rw [hi]
    exact (hask l₁ p hr).next_of_conflict hchain hchain' (hfresh.unused i _ henv)
      (hfresh.unused j _ henv') (hfresh.distinct i j _ _ hij henv henv') hfree hm hconflict
  refine Concurrency.not_deadlock (waitMeasure level st.shared.db)
    fun i j k l l' hij hjk hl hl' => ?_
  obtain ⟨env, -, hi⟩ := hnext i j l hij hl
  obtain ⟨env', henv', hj⟩ := hnext j k l' hjk hl'
  obtain ⟨hne, l₁, hl₁, m, hm, hconflict⟩ := hij
  obtain rfl := Option.some.inj (hl₁.symm.trans hl)
  exact waitMeasure_lt hi hj (hfresh.unused j _ henv') (h.safe.exclusive i j hne) hm hconflict.1

/-- **No deadlock, unless the order of the domains runs in a circle**: whatever transactions are
open, no circle of them waits for each other. -/
theorem deadlock_free (h : Reachable honours st) (hfresh : FreshUuids st)
    (hacyclic : Graph.Acyclic st.shared.db.LockedBefore) : ¬ (machine honours).Deadlock st := by
  obtain ⟨level, hlayered⟩ := Store.exists_layered.mp hacyclic
  have hbody : ∀ (t : Transaction) (env : TxEnv), (∃ o, t.Spec honours env o st.shared) →
      Tx.LocksInOrder honours level st.shared env [] [] (t.body env) fun _ _ _ => True :=
    fun t env ⟨o, hspec⟩ => Transaction.locks_body hspec.pre h.invariant hlayered
  exact not_deadlock_of_follows h hfresh fun i req log t k a hi => h.safe.chain hi (hbody t a.env)

/-! ## Scripts with fresh UUIDs -/

def Uuid.letter (id : Uuid) : Option Char := id.toList.head?

theorem drawing_letter {name : String} {c : Char} (h : name.toList.head? = some c) (n : ℕ) :
    Uuid.letter ((drawing name).uuid n) = some c := by
  match n with
  | 0 | 1 | 2 | n + 3 => simp [Uuid.letter, drawing, String.toList_append, h]

/-- The ids of the series, the versions, the jobs and the attempts. -/
def Store.ids (s : Store) : List Uuid :=
  s.datasetSeries.rows.map (·.id) ++ s.datasetVersions.rows.map (·.id)
    ++ s.calculationJobs.rows.map (·.id) ++ s.executionAttempts.rows.map (·.id)

theorem Store.unused_of_letter {s : Store} {id : Uuid}
    (h : ∀ id' ∈ s.ids, Uuid.letter id' ≠ Uuid.letter id) : s.Unused id := by
  have hnone : ∀ {α : Type} {key : α → Uuid} (t : Table α Uuid key),
      (∀ row ∈ t.rows, key row ∈ s.ids) → t.get? id = none := by
    intro α key t ht
    by_contra hne
    obtain ⟨row, hrow⟩ := Option.ne_none_iff_exists'.mp hne
    exact h _ (ht row (Table.get?_mem hrow)) (by rw [Table.get?_key hrow])
  constructor <;> exact hnone _ fun row hrow => by simp [Store.ids, List.mem_map_of_mem hrow]

/-- No row has an id with the letter of a thread that is in a transaction. -/
def SystemStage.freshLetters (letters : List Char) (S : SystemStage) : Bool :=
  (List.range letters.length).all fun i => (S.thread i).env?.isNone
    || S.shared.db.ids.all fun id => Uuid.letter id ≠ letters[i]?

/-- The transactions of thread `i` draw ids that begin with the letter `i`. -/
def Script.Draws {honours : Prop} (letters : List Char) (script : Script honours) : Prop :=
  ∀ i env, .advance i env ∈ script → ∃ name c, env = drawing name ∧ letters[i]? = some c
    ∧ name.toList.head? = some c

namespace Script

variable {letters : List Char}

@[simp] theorem draws_append {script script' : Script honours} :
    Draws letters (script ++ script') ↔ Draws letters script ∧ Draws letters script' := by
  simp only [Draws, List.mem_append, or_imp, forall_and]

@[simp] theorem draws_request (req : Request) : Draws letters (request honours req) := by
  simp [Draws, request]

theorem draws_steps {i n : ℕ} {name : String} {c : Char} (hc : letters[i]? = some c)
    (hname : name.toList.head? = some c) : Draws letters (steps honours i n name) := by
  intro j env hmem
  obtain ⟨rfl, rfl⟩ := Action.advance.inj (List.eq_of_mem_replicate hmem)
  exact ⟨name, c, rfl, hc, hname⟩

end Script

/-- If the threads of a script draw ids of different letters, the ids are fresh as long as no row
has one of them. -/
theorem FreshUuids.of_play [Decidable honours] {script : Script honours} {S S' : SystemStage}
    {letters : List Char} (hletters : letters.Nodup) (hquiet : S.threads = [])
    (h : play (machine honours) script S = some S')
    (hdraws : Script.Draws letters script)
    (hfresh : SystemStage.freshLetters letters S' = true) : FreshUuids S'.state := by
  have hletter : ∀ i env, (S'.thread i).env? = some env →
      ∃ c, letters[i]? = some c ∧ ∀ n, Uuid.letter (env.uuid n) = some c := by
    intro i env henv
    rcases Concurrency.env_of_play h henv with hopen | hmem
    · rw [Stage.thread_of_le (by simp [hquiet])] at hopen
      cases hopen
    · obtain ⟨name, c, rfl, hc, hname⟩ := hdraws i env hmem
      exact ⟨c, hc, drawing_letter hname⟩
  constructor
  · intro i env henv n
    obtain ⟨c, hc, hdrawn⟩ := hletter i env henv
    obtain ⟨hlt, -⟩ := List.getElem?_eq_some_iff.mp hc
    have hrows := List.all_eq_true.mp hfresh i (List.mem_range.mpr hlt)
    rw [show (S'.thread i).env? = some env from henv, hc, Option.isNone_some, Bool.false_or,
      List.all_eq_true] at hrows
    exact Store.unused_of_letter fun id hid => hdrawn n ▸ of_decide_eq_true (hrows id hid)
  · intro i j env env' hij henv henv' n k heq
    obtain ⟨c, hc, hdrawn⟩ := hletter i env henv
    obtain ⟨c', hc', hdrawn'⟩ := hletter j env' henv'
    obtain ⟨hlt, -⟩ := List.getElem?_eq_some_iff.mp hc
    refine hij ((List.getElem?_inj hlt hletters).mp ?_)
    rw [hc, hc', ← hdrawn n, ← hdrawn' k, heq]

/-! ## Transactions that wait -/

/-- A first Run of `margin` holds the type and waits for the series of `price`, which a creation
holds; another creation of `margin` waits for the type. -/
def Script.queued (honours : Prop) : Script honours :=
  request honours (.createDatasetVersion ⟨"price", "acme", 2024, .q1⟩) ++ steps honours 0 27 "u"
    ++ request honours (.createDatasetVersion ⟨"margin", "acme", 2024, .q1⟩)
    ++ steps honours 1 27 "v"
    ++ request honours (.prepareCalculationJobRun "v2") ++ steps honours 2 9 "p"
    ++ request honours (.createDatasetVersion ⟨"price", "acme", 2024, .q1⟩)
    ++ steps honours 3 5 "q"
    ++ request honours (.createDatasetVersion ⟨"margin", "acme", 2024, .q2⟩)
    ++ steps honours 4 24 "r"

/-- A chain of waits that is no circle. -/
theorem deadlock_free_queued : ∃ S : SystemStage,
    play (machine True) (Script.queued True) SystemStage.chained = some S
      ∧ (machine True).Waits S.state 4 2 ∧ (machine True).Waits S.state 2 3
      ∧ ¬ (machine True).Deadlock S.state := by
  obtain ⟨S, hS, hp⟩ := exists_of_play (p := fun S =>
      decide ((machine True).Waits S.state 4 2 ∧ (machine True).Waits S.state 2 3
        ∧ S.shared.db.domainRequirements = [("margin", "price")]
        ∧ SystemStage.freshLetters ['u', 'v', 'p', 'q', 'r'] S = true))
    (show (play (machine True) (Script.queued True) SystemStage.chained).any _ = true by
      decide +kernel)
  obtain ⟨hw, hw', hrequires, hletters⟩ := of_decide_eq_true hp
  have hfresh : FreshUuids S.state := by
    refine .of_play (by decide) rfl hS ?_ hletters
    simp only [Script.queued, Script.draws_append, Script.draws_request, true_and, and_true]
    refine ⟨⟨⟨⟨?_, ?_⟩, ?_⟩, ?_⟩, ?_⟩ <;> exact Script.draws_steps rfl (by simp)
  have hlocked : Graph.Acyclic S.shared.db.LockedBefore := by
    refine Store.lockedBefore_acyclic (Graph.acyclic_of_level
      (fun domain => if domain = "price" then 1 else 0) fun domain required h => ?_)
      fun domain required required' h h' => ?_
    · rw [Store.DomainRequires, hrequires, List.mem_singleton] at h
      cases h
      decide
    · rw [Store.DomainRequires, hrequires, List.mem_singleton] at h h'
      cases h
      cases h'
      rfl
  exact ⟨S, hS, hw, hw', deadlock_free (.of_play SystemStage.chained_initial hS) hfresh hlocked⟩

/-! ## A circle -/

theorem SystemStage.nodup_triangle :
    (([⟨"definition1", "type1", 1, .published⟩, ⟨"definition2", "type2", 1, .published⟩,
      ⟨"definition3", "type3", 1, .published⟩] : List DependencyDefinition).map (·.id)).Nodup := by
  decide

/-- `margin` requires `cost` and `price`, which requires `cost` itself. -/
def SystemStage.triangle : SystemStage where
  shared := {
    db := .empty
      ⟨[⟨"type1", "cost", "COST", "cost_dag", true⟩,
        ⟨"type2", "price", "PRICE", "price_dag", true⟩,
        ⟨"type3", "margin", "MARGIN", "margin_dag", true⟩], by decide⟩
      ⟨[⟨"definition1", "type1", 1, .published⟩, ⟨"definition2", "type2", 1, .published⟩,
        ⟨"definition3", "type3", 1, .published⟩], nodup_triangle⟩
      ⟨[⟨"definition2", "cost"⟩, ⟨"definition3", "cost"⟩, ⟨"definition3", "price"⟩], by decide⟩
    world := ⟨0, fun _ => .unseen, []⟩ }

theorem SystemStage.triangle_initial : Initial triangle.state :=
  .intro _ _ _ 0

/-- A first Run of `price` holds its type, when its version is abandoned; a first Run of `margin`
gets the series of `cost`, a creation that of `price`. Then they wait: the Run of `price` for
`cost`, the Run of `margin` for `price`, the creation for the type. -/
def Script.circle (honours : Prop) : Script honours :=
  request honours (.createDatasetVersion ⟨"cost", "acme", 2024, .q1⟩) ++ steps honours 0 27 "u"
    ++ request honours (.createDatasetVersion ⟨"price", "acme", 2024, .q1⟩)
    ++ steps honours 1 27 "v"
    ++ request honours (.createDatasetVersion ⟨"margin", "acme", 2024, .q1⟩)
    ++ steps honours 2 27 "w"
    ++ request honours (.prepareCalculationJobRun "v2") ++ steps honours 3 9 "p"
    ++ request honours (.abandonDatasetVersion "v1") ++ steps honours 4 18 "q"
    ++ request honours (.prepareCalculationJobRun "w2") ++ steps honours 5 12 "r"
    ++ request honours (.createDatasetVersion ⟨"price", "acme", 2024, .q1⟩)
    ++ steps honours 6 19 "x"

/-- No domain requires itself, and yet three transactions wait for each other. -/
theorem deadlock_in_circle : ∃ S : SystemStage,
    play (machine True) (Script.circle True) SystemStage.triangle = some S
      ∧ Reachable True S.state ∧ FreshUuids S.state
      ∧ Graph.Acyclic S.shared.db.DomainRequires
      ∧ ((machine True).Waits S.state 3 5 ∧ (machine True).Waits S.state 5 6
        ∧ (machine True).Waits S.state 6 3)
      ∧ (machine True).Deadlock S.state := by
  obtain ⟨S, hS, hp⟩ := exists_of_play (p := fun S =>
      decide (((machine True).Waits S.state 3 5 ∧ (machine True).Waits S.state 5 6
          ∧ (machine True).Waits S.state 6 3)
        ∧ S.shared.db.domainRequirements
          = [("price", "cost"), ("margin", "cost"), ("margin", "price")]
        ∧ SystemStage.freshLetters ['u', 'v', 'w', 'p', 'q', 'r', 'x'] S = true))
    (show (play (machine True) (Script.circle True) SystemStage.triangle).any _ = true by
      decide +kernel)
  obtain ⟨hwaits, hrequires, hletters⟩ := of_decide_eq_true hp
  have hfresh : FreshUuids S.state := by
    refine .of_play (by decide) rfl hS ?_ hletters
    simp only [Script.circle, Script.draws_append, Script.draws_request, true_and, and_true]
    refine ⟨⟨⟨⟨⟨⟨?_, ?_⟩, ?_⟩, ?_⟩, ?_⟩, ?_⟩, ?_⟩ <;> exact Script.draws_steps rfl (by simp)
  have hacyclic : Graph.Acyclic S.shared.db.DomainRequires := by
    refine Graph.acyclic_of_level (fun domain => if domain = "cost" then 2
      else if domain = "price" then 1 else 0) fun domain required h => ?_
    rw [Store.DomainRequires, hrequires] at h
    simp only [List.mem_cons, Prod.mk.injEq, List.not_mem_nil, or_false] at h
    rcases h with ⟨rfl, rfl⟩ | ⟨rfl, rfl⟩ | ⟨rfl, rfl⟩ <;> decide
  obtain ⟨h₃, h₅, h₆⟩ := hwaits
  exact ⟨S, hS, .of_play SystemStage.triangle_initial hS, hfresh, hacyclic, ⟨h₃, h₅, h₆⟩,
    3, .tail (.tail (.single h₃) h₅) h₆⟩

end CostEngine
