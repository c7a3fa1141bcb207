/-!
# Programs of a concurrent database application

A request handler of a database application is a sequence of three kinds of steps:
plain reads of the committed rows, whole transactions, and conversations with an
external service. This file has the two program types that the rest of the library
gives a meaning to.

* `Txn` — the body of one transaction, statement by statement. A statement reads the
  committed rows (`read`), waits for a row lock (`acquire`) or changes rows (`write`).
  It is a tree: a `read` continues with whatever the rows turn out to be.
* `Call` — one request handler. Transactions appear in it by name (`txn t`), so that a
  statement about "the transaction `t`" can be made of every handler that runs it.

Both are monads with exceptions, so handlers are written in `do` notation.
-/

namespace Concurrency

variable {σ κ ω ε τ μ Q α β : Type} {Res : τ → Type} {Ans : Q → Type}

/-! ## Transaction bodies -/

/-- The body of a transaction over the rows `σ`, with row locks `κ` and row changes
`ω`. `pure` commits, `throw` rolls back. -/
inductive Txn (σ κ ω ε α : Type) : Type where
  | pure (a : α)
  | throw (e : ε)
  | read (k : σ → Txn σ κ ω ε α)
  | acquire (l : κ) (k : Txn σ κ ω ε α)
  | write (u : ω) (k : Txn σ κ ω ε α)

namespace Txn

def bind : Txn σ κ ω ε α → (α → Txn σ κ ω ε β) → Txn σ κ ω ε β
  | .pure a, f      => f a
  | .throw e, _     => .throw e
  | .read k, f      => .read fun s => (k s).bind f
  | .acquire l k, f => .acquire l (k.bind f)
  | .write u k, f   => .write u (k.bind f)

instance : Monad (Txn σ κ ω ε) where
  pure := Txn.pure
  bind := Txn.bind

/-- A statement that only reads: `f` of the rows the statement sees. -/
def select (f : σ → α) : Txn σ κ ω ε α := .read fun s => .pure (f s)

/-- Wait for the row lock `l`; it is held until the transaction ends. -/
def lock (l : κ) : Txn σ κ ω ε Unit := .acquire l (.pure ())

/-- Change rows. The change is private to the transaction until it commits. -/
def change (u : ω) : Txn σ κ ω ε Unit := .write u (.pure ())

/-- `SELECT … FOR UPDATE` of one row: the row is looked for in the rows the statement
starts from, locked, and read again under the lock. -/
def selectForUpdate (l : κ) (find : σ → Option α) : Txn σ κ ω ε (Option α) :=
  .read fun s => match find s with
    | none => .pure none
    | some _ => .acquire l (select find)

/-- `SELECT … FOR UPDATE OF` one row of a join. The columns of the other tables are the
ones the statement started from, even when it then waits for the lock; only the locked
row is read again. -/
def selectJoinForUpdate (l : κ) (joined : σ → Option β) (find : β → σ → Option α) :
    Txn σ κ ω ε (Option α) :=
  .read fun s => match joined s with
    | none => .pure none
    | some columns => .acquire l (select (find columns))

/-- `UPDATE … WHERE … RETURNING`: like `selectForUpdate`, and the row found under the
lock is replaced by the image `image` gives it. The result is the row before the
change, `none` when no row qualifies. -/
def updateReturning (l : κ) (find : σ → Option α) (image : α → ω) :
    Txn σ κ ω ε (Option α) :=
  .read fun s => match find s with
    | none => .pure none
    | some _ => .acquire l <| .read fun s => match find s with
        | none => .pure none
        | some row => .write (image row) (.pure (some row))

/-- `INSERT`: the new keys are claimed in the unique indexes, which waits for any other
transaction that inserted the same key, and a key that is taken raises `violation`. -/
def insertRow (l : κ) (violation : σ → Option ε) (u : ω) : Txn σ κ ω ε Unit :=
  .acquire l <| .read fun s => match violation s with
    | some e => .throw e
    | none => .write u (.pure ())

@[simp] theorem pure_eq (a : α) : (Pure.pure a : Txn σ κ ω ε α) = .pure a := rfl

@[simp] theorem bind_eq (p : Txn σ κ ω ε α) (f : α → Txn σ κ ω ε β) :
    p >>= f = p.bind f := rfl

/-! ### What a transaction may change -/

/-- Every change in the tree satisfies `P`. -/
def Writes (P : ω → Prop) : Txn σ κ ω ε α → Prop
  | .pure _      => True
  | .throw _     => True
  | .read k      => ∀ s, (k s).Writes P
  | .acquire _ k => k.Writes P
  | .write u k   => P u ∧ k.Writes P

section Writes

variable {P P' : ω → Prop}

@[simp] theorem writes_pure (a : α) : (Txn.pure a : Txn σ κ ω ε α).Writes P := trivial

@[simp] theorem writes_throw (e : ε) : (Txn.throw e : Txn σ κ ω ε α).Writes P := trivial

theorem writes_bind {p : Txn σ κ ω ε α} {f : α → Txn σ κ ω ε β} (hp : p.Writes P)
    (hf : ∀ a, (f a).Writes P) : (p >>= f).Writes P := by
  induction p with
  | pure a => exact hf a
  | throw e => trivial
  | read k ih => exact fun s => ih s (hp s)
  | acquire l k ih => exact ih hp
  | write u k ih => exact ⟨hp.1, ih hp.2⟩

theorem Writes.mono {p : Txn σ κ ω ε α} (hp : p.Writes P) (h : ∀ u, P u → P' u) :
    p.Writes P' := by
  induction p with
  | pure a => trivial
  | throw e => trivial
  | read k ih => exact fun s => ih s (hp s)
  | acquire l k ih => exact ih hp
  | write u k ih => exact ⟨h u hp.1, ih hp.2⟩

@[simp] theorem writes_select (f : σ → α) : (select f : Txn σ κ ω ε α).Writes P :=
  fun _ => trivial

@[simp] theorem writes_lock (l : κ) : (lock l : Txn σ κ ω ε Unit).Writes P := trivial

@[simp] theorem writes_selectForUpdate (l : κ) (find : σ → Option α) :
    (selectForUpdate l find : Txn σ κ ω ε (Option α)).Writes P := by
  intro s
  dsimp only
  split
  · trivial
  · exact fun _ => trivial

@[simp] theorem writes_selectJoinForUpdate (l : κ) (joined : σ → Option β)
    (find : β → σ → Option α) :
    (selectJoinForUpdate l joined find : Txn σ κ ω ε (Option α)).Writes P := by
  intro s
  dsimp only
  split
  · trivial
  · exact fun _ => trivial

theorem writes_updateReturning {l : κ} {find : σ → Option α} {image : α → ω}
    (h : ∀ a, P (image a)) :
    (updateReturning l find image : Txn σ κ ω ε (Option α)).Writes P := by
  intro s
  dsimp only
  split
  · trivial
  · intro s'
    dsimp only
    split
    · trivial
    · exact ⟨h _, trivial⟩

theorem writes_insertRow {l : κ} {violation : σ → Option ε} {u : ω} (h : P u) :
    (insertRow l violation u : Txn σ κ ω ε Unit).Writes P := by
  intro s
  dsimp only
  split
  · trivial
  · exact ⟨h, trivial⟩

end Writes

end Txn

/-! ## Request handlers -/

/-- One request handler over the rows `σ`: its plain reads, its transactions, the
messages `μ` it sends to the external service and the answers it waits for. -/
inductive Call (σ ε τ : Type) (Res : τ → Type) (μ Q : Type) (Ans : Q → Type)
    (α : Type) : Type where
  | ret (r : Except ε α)
  | query (k : σ → Call σ ε τ Res μ Q Ans α)
  | txn (t : τ) (k : Except ε (Res t) → Call σ ε τ Res μ Q Ans α)
  | send (m : μ) (k : Call σ ε τ Res μ Q Ans α)
  | await (q : Q) (k : Ans q → Call σ ε τ Res μ Q Ans α)

namespace Call

def bind : Call σ ε τ Res μ Q Ans α → (α → Call σ ε τ Res μ Q Ans β) →
    Call σ ε τ Res μ Q Ans β
  | .ret (.ok a), f    => f a
  | .ret (.error e), _ => .ret (.error e)
  | .query k, f        => .query fun s => (k s).bind f
  | .txn t k, f        => .txn t fun r => (k r).bind f
  | .send m k, f       => .send m (k.bind f)
  | .await q k, f      => .await q fun a => (k a).bind f

/-- `try … catch`: the handler `h` continues where the call fails. -/
def tryCatch : Call σ ε τ Res μ Q Ans α → (ε → Call σ ε τ Res μ Q Ans α) →
    Call σ ε τ Res μ Q Ans α
  | .ret (.ok a), _    => .ret (.ok a)
  | .ret (.error e), h => h e
  | .query k, h        => .query fun s => (k s).tryCatch h
  | .txn t k, h        => .txn t fun r => (k r).tryCatch h
  | .send m k, h       => .send m (k.tryCatch h)
  | .await q k, h      => .await q fun a => (k a).tryCatch h

instance : Monad (Call σ ε τ Res μ Q Ans) where
  pure a := .ret (.ok a)
  bind := Call.bind

instance : MonadExcept ε (Call σ ε τ Res μ Q Ans) where
  throw e := .ret (.error e)
  tryCatch := Call.tryCatch

/-- A plain read outside any transaction. -/
def select (f : σ → α) : Call σ ε τ Res μ Q Ans α := .query fun s => .ret (.ok (f s))

/-- Run the transaction `t`, failing as it fails. -/
def transaction (t : τ) : Call σ ε τ Res μ Q Ans (Res t) := .txn t .ret

@[simp] theorem pure_eq (a : α) :
    (Pure.pure a : Call σ ε τ Res μ Q Ans α) = .ret (.ok a) := rfl

@[simp] theorem bind_eq (c : Call σ ε τ Res μ Q Ans α) (f : α → Call σ ε τ Res μ Q Ans β) :
    c >>= f = c.bind f := rfl

@[simp] theorem throw_eq (e : ε) :
    (throw e : Call σ ε τ Res μ Q Ans α) = .ret (.error e) := rfl

end Call

end Concurrency
