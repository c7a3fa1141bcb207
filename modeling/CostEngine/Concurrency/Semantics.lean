import Mathlib.Logic.Function.Basic
import CostEngine.Concurrency.Program

/-!
# Interleaved execution

Any number of threads run request handlers against one set of committed rows. One step
is one statement of one thread, so every interleaving of statements is a run:

* a read sees the rows committed at that moment, with the transaction's own changes on
  top (READ COMMITTED);
* a lock is granted only when no other open transaction holds a conflicting one, and is
  kept until the transaction ends;
* changes become visible to the others when the transaction commits, all at once;
* a thread may stop for good at any point, which rolls its open transaction back.

The external service, the clock and anything else outside the database is the *world*.
It moves on its own, and a waiting thread receives any answer the world allows.
-/

namespace Concurrency

variable {σ κ ω ε η τ μ Q χ ρ β : Type} {Res : τ → Type} {Ans : Q → Type}

/-! ## Applications -/

/-- What the threads share: the committed rows and the world. -/
structure Global (σ χ : Type) where
  db : σ
  world : χ

/-- An application: its handlers and transaction bodies, and how rows, locks and the
world behave. `η` is what `BEGIN` fixes for a transaction, such as its timestamp. -/
structure Machine (σ κ ω ε η τ : Type) (Res : τ → Type) (μ Q : Type) (Ans : Q → Type)
    (χ ρ β : Type) where
  apply : σ → ω → σ
  conflict : κ → κ → Prop
  conflict_symm : ∀ l m, conflict l m → conflict m l
  body : (t : τ) → η → Txn σ κ ω ε (Res t)
  serve : ρ → Call σ ε τ Res μ Q Ans β
  begins : χ → η → Prop
  sends : μ → χ → χ
  answers : (q : Q) → χ → Ans q → Prop
  worldStep : χ → χ → Prop
  configStep : σ → List κ → σ → Prop

/-! ## Threads -/

/-- A transaction in progress. `seen` records the states its reads have seen so far;
the program never looks at it. -/
structure Active (σ κ ω ε η χ α : Type) where
  env : η
  seen : List (Global σ χ) := []
  locks : List κ := []
  writes : List ω := []
  rest : Txn σ κ ω ε α

/-- Something a call has done. -/
inductive Event (ε τ : Type) (Res : τ → Type) (μ Q : Type) (Ans : Q → Type) where
  | ended (t : τ) (r : Except ε (Res t))
  | sent (m : μ)
  | answered (q : Q) (a : Ans q)

/-- `log` records what the call has done so far; the program never looks at it. -/
inductive Thread (σ κ ω ε η τ : Type) (Res : τ → Type) (μ Q : Type) (Ans : Q → Type)
    (χ ρ β : Type) where
  | idle
  | running (req : ρ) (log : List (Event ε τ Res μ Q Ans)) (call : Call σ ε τ Res μ Q Ans β)
  | inTxn (req : ρ) (log : List (Event ε τ Res μ Q Ans)) (t : τ)
      (k : Except ε (Res t) → Call σ ε τ Res μ Q Ans β) (a : Active σ κ ω ε η χ (Res t))

namespace Thread

/-- What `BEGIN` fixed for the transaction that a thread is in. -/
def env? : Thread σ κ ω ε η τ Res μ Q Ans χ ρ β → Option η
  | .inTxn _ _ _ _ a => some a.env
  | _ => none

/-- The row locks a thread holds. -/
def locks : Thread σ κ ω ε η τ Res μ Q Ans χ ρ β → List κ
  | .inTxn _ _ _ _ a => a.locks
  | _                => []

@[simp] theorem locks_idle :
    (idle : Thread σ κ ω ε η τ Res μ Q Ans χ ρ β).locks = [] := rfl

@[simp] theorem locks_running (req : ρ) (log : List (Event ε τ Res μ Q Ans))
    (call : Call σ ε τ Res μ Q Ans β) :
    (running req log call : Thread σ κ ω ε η τ Res μ Q Ans χ ρ β).locks = [] := rfl

@[simp] theorem locks_inTxn (req : ρ) (log : List (Event ε τ Res μ Q Ans)) (t : τ)
    (k : Except ε (Res t) → Call σ ε τ Res μ Q Ans β) (a : Active σ κ ω ε η χ (Res t)) :
    (inTxn req log t k a : Thread σ κ ω ε η τ Res μ Q Ans χ ρ β).locks = a.locks := rfl

end Thread

structure State (σ κ ω ε η τ : Type) (Res : τ → Type) (μ Q : Type) (Ans : Q → Type)
    (χ ρ β : Type) where
  shared : Global σ χ
  threads : Nat → Thread σ κ ω ε η τ Res μ Q Ans χ ρ β

namespace Machine

variable (M : Machine σ κ ω ε η τ Res μ Q Ans χ ρ β)

/-! ## The rows that are seen -/

/-- The rows a transaction sees: the committed ones with its own changes on top. -/
def view (s : σ) (ws : List ω) : σ := ws.foldl M.apply s

@[simp] theorem view_nil (s : σ) : M.view s [] = s := rfl

@[simp] theorem view_append_singleton (s : σ) (ws : List ω) (u : ω) :
    M.view s (ws ++ [u]) = M.apply (M.view s ws) u := by
  simp [view]

/-- The shared state after a commit of `ws`. -/
def commit (g : Global σ χ) (ws : List ω) : Global σ χ := { g with db := M.view g.db ws }

@[simp] theorem commit_db (g : Global σ χ) (ws : List ω) :
    (M.commit g ws).db = M.view g.db ws := rfl

@[simp] theorem commit_world (g : Global σ χ) (ws : List ω) :
    (M.commit g ws).world = g.world := rfl

@[simp] theorem commit_nil (g : Global σ χ) : M.commit g [] = g := rfl

/-- No lock of `L` conflicts with the lock `l`. -/
def Free (l : κ) (L : List κ) : Prop := ∀ m ∈ L, ¬ M.conflict l m

end Machine

/-- Thread `i` becomes `th`. -/
def State.set (st : State σ κ ω ε η τ Res μ Q Ans χ ρ β) (i : Nat)
    (th : Thread σ κ ω ε η τ Res μ Q Ans χ ρ β) : State σ κ ω ε η τ Res μ Q Ans χ ρ β :=
  { st with threads := Function.update st.threads i th }

@[simp] theorem State.set_shared (st : State σ κ ω ε η τ Res μ Q Ans χ ρ β) (i : Nat)
    (th : Thread σ κ ω ε η τ Res μ Q Ans χ ρ β) : (st.set i th).shared = st.shared := rfl

@[simp] theorem State.set_threads (st : State σ κ ω ε η τ Res μ Q Ans χ ρ β) (i : Nat)
    (th : Thread σ κ ω ε η τ Res μ Q Ans χ ρ β) :
    (st.set i th).threads = Function.update st.threads i th := rfl

/-! ## Steps and runs -/

/-- One step of the application. -/
inductive Machine.Step (M : Machine σ κ ω ε η τ Res μ Q Ans χ ρ β) :
    State σ κ ω ε η τ Res μ Q Ans χ ρ β → State σ κ ω ε η τ Res μ Q Ans χ ρ β → Prop where
  /-- A request arrives. -/
  | spawn (st : State σ κ ω ε η τ Res μ Q Ans χ ρ β) (i : Nat) (req : ρ) :
      st.threads i = .idle → M.Step st (st.set i (.running req [] (M.serve req)))
  | query (st : State σ κ ω ε η τ Res μ Q Ans χ ρ β) (i : Nat) (req : ρ)
      (log : List (Event ε τ Res μ Q Ans)) (k : σ → Call σ ε τ Res μ Q Ans β) :
      st.threads i = .running req log (.query k) →
      M.Step st (st.set i (.running req log (k st.shared.db)))
  | begin (st : State σ κ ω ε η τ Res μ Q Ans χ ρ β) (i : Nat) (req : ρ)
      (log : List (Event ε τ Res μ Q Ans)) (t : τ)
      (k : Except ε (Res t) → Call σ ε τ Res μ Q Ans β) (env : η) :
      st.threads i = .running req log (.txn t k) → M.begins st.shared.world env →
      M.Step st (st.set i (.inTxn req log t k { env, rest := M.body t env }))
  | read (st : State σ κ ω ε η τ Res μ Q Ans χ ρ β) (i : Nat) (req : ρ)
      (log : List (Event ε τ Res μ Q Ans)) (t : τ)
      (k : Except ε (Res t) → Call σ ε τ Res μ Q Ans β)
      (a : Active σ κ ω ε η χ (Res t)) (f : σ → Txn σ κ ω ε (Res t)) :
      st.threads i = .inTxn req log t k a → a.rest = .read f →
      M.Step st (st.set i (.inTxn req log t k
        { a with seen := a.seen ++ [st.shared], rest := f (M.view st.shared.db a.writes) }))
  | acquire (st : State σ κ ω ε η τ Res μ Q Ans χ ρ β) (i : Nat) (req : ρ)
      (log : List (Event ε τ Res μ Q Ans)) (t : τ)
      (k : Except ε (Res t) → Call σ ε τ Res μ Q Ans β)
      (a : Active σ κ ω ε η χ (Res t)) (l : κ) (p : Txn σ κ ω ε (Res t)) :
      st.threads i = .inTxn req log t k a → a.rest = .acquire l p →
      (∀ j, j ≠ i → M.Free l (st.threads j).locks) →
      M.Step st (st.set i (.inTxn req log t k { a with locks := l :: a.locks, rest := p }))
  | write (st : State σ κ ω ε η τ Res μ Q Ans χ ρ β) (i : Nat) (req : ρ)
      (log : List (Event ε τ Res μ Q Ans)) (t : τ)
      (k : Except ε (Res t) → Call σ ε τ Res μ Q Ans β)
      (a : Active σ κ ω ε η χ (Res t)) (u : ω) (p : Txn σ κ ω ε (Res t)) :
      st.threads i = .inTxn req log t k a → a.rest = .write u p →
      M.Step st (st.set i (.inTxn req log t k { a with writes := a.writes ++ [u], rest := p }))
  | commit (st : State σ κ ω ε η τ Res μ Q Ans χ ρ β) (i : Nat) (req : ρ)
      (log : List (Event ε τ Res μ Q Ans)) (t : τ)
      (k : Except ε (Res t) → Call σ ε τ Res μ Q Ans β)
      (a : Active σ κ ω ε η χ (Res t)) (r : Res t) :
      st.threads i = .inTxn req log t k a → a.rest = .pure r →
      M.Step st { shared := M.commit st.shared a.writes,
                  threads := Function.update st.threads i
                    (.running req (log ++ [.ended t (.ok r)]) (k (.ok r))) }
  | rollback (st : State σ κ ω ε η τ Res μ Q Ans χ ρ β) (i : Nat) (req : ρ)
      (log : List (Event ε τ Res μ Q Ans)) (t : τ)
      (k : Except ε (Res t) → Call σ ε τ Res μ Q Ans β)
      (a : Active σ κ ω ε η χ (Res t)) (e : ε) :
      st.threads i = .inTxn req log t k a → a.rest = .throw e →
      M.Step st (st.set i (.running req (log ++ [.ended t (.error e)]) (k (.error e))))
  | send (st : State σ κ ω ε η τ Res μ Q Ans χ ρ β) (i : Nat) (req : ρ)
      (log : List (Event ε τ Res μ Q Ans)) (m : μ) (c : Call σ ε τ Res μ Q Ans β) :
      st.threads i = .running req log (.send m c) →
      M.Step st { shared := { st.shared with world := M.sends m st.shared.world },
                  threads := Function.update st.threads i
                    (.running req (log ++ [.sent m]) c) }
  | answer (st : State σ κ ω ε η τ Res μ Q Ans χ ρ β) (i : Nat) (req : ρ)
      (log : List (Event ε τ Res μ Q Ans)) (q : Q)
      (k : Ans q → Call σ ε τ Res μ Q Ans β) (a : Ans q) :
      st.threads i = .running req log (.await q k) → M.answers q st.shared.world a →
      M.Step st (st.set i (.running req (log ++ [.answered q a]) (k a)))
  | finish (st : State σ κ ω ε η τ Res μ Q Ans χ ρ β) (i : Nat) (req : ρ)
      (log : List (Event ε τ Res μ Q Ans)) (r : Except ε β) :
      st.threads i = .running req log (.ret r) → M.Step st (st.set i .idle)
  /-- The thread stops for good: a crash, a lost connection, a cancelled statement. -/
  | stop (st : State σ κ ω ε η τ Res μ Q Ans χ ρ β) (i : Nat) : M.Step st (st.set i .idle)
  | world (st : State σ κ ω ε η τ Res μ Q Ans χ ρ β) (x : χ) :
      M.worldStep st.shared.world x →
      M.Step st { st with shared := { st.shared with world := x } }
  /-- A transaction from outside the application, which obeys its locks. -/
  | config (st : State σ κ ω ε η τ Res μ Q Ans χ ρ β) (L : List κ) (s : σ) :
      M.configStep st.shared.db L s →
      (∀ l ∈ L, ∀ i, M.Free l (st.threads i).locks) →
      M.Step st { st with shared := { st.shared with db := s } }

/-- A run of any length. -/
inductive Machine.Run (M : Machine σ κ ω ε η τ Res μ Q Ans χ ρ β) :
    State σ κ ω ε η τ Res μ Q Ans χ ρ β → State σ κ ω ε η τ Res μ Q Ans χ ρ β → Prop where
  | refl (st : State σ κ ω ε η τ Res μ Q Ans χ ρ β) : M.Run st st
  | step {st st' st'' : State σ κ ω ε η τ Res μ Q Ans χ ρ β} :
      M.Run st st' → M.Step st' st'' → M.Run st st''

/-- All threads idle over the shared state `g`. -/
def State.quiet (g : Global σ χ) : State σ κ ω ε η τ Res μ Q Ans χ ρ β :=
  { shared := g, threads := fun _ => .idle }

end Concurrency
