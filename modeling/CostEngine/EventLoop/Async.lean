import Mathlib.Data.List.Forall2

/-!
# Programs of an event loop

An asynchronous function runs until it waits for something, and what it waits for is answered
later: by then others have run. `Async` is the program of one such conversation over a page
`σ` that all of them share. It reads and changes the page, and `all` waits until every one of
a list of operations is answered.

`Contract` says what a conversation may do to the page and what it may count on while it
waits, and `Wp` is the weakest precondition of a program under a contract. A conversation has
a birthday `born`, so that a contract can tell the conversations apart.
-/

namespace EventLoop

variable {σ Op A ε α β : Type}

/-! ## Programs -/

/-- The program of a conversation. -/
inductive Async (σ Op A ε α : Type) : Type where
  | pure (a : α)
  | throw (e : ε)
  | get (k : σ → Async σ Op A ε α)
  | set (s : σ) (k : Async σ Op A ε α)
  | all (ops : List Op) (k : List A → Async σ Op A ε α)

/-- What a program comes to before it has to wait. -/
inductive Status (σ Op A ε α : Type) : Type where
  | returned (a : α)
  | threw (e : ε)
  | waiting (ops : List Op) (k : List A → Async σ Op A ε α)

namespace Async

def bind : Async σ Op A ε α → (α → Async σ Op A ε β) → Async σ Op A ε β
  | .pure a, f    => f a
  | .throw e, _   => .throw e
  | .get k, f     => .get fun s => (k s).bind f
  | .set s k, f   => .set s (k.bind f)
  | .all ops k, f => .all ops fun as => (k as).bind f

/-- `try p catch (e) { handler(e) }`. -/
def attempt : Async σ Op A ε α → (ε → Async σ Op A ε α) → Async σ Op A ε α
  | .pure a, _    => .pure a
  | .throw e, f   => f e
  | .get k, f     => .get fun s => (k s).attempt f
  | .set s k, f   => .set s (k.attempt f)
  | .all ops k, f => .all ops fun as => (k as).attempt f

instance : Monad (Async σ Op A ε) where
  pure := Async.pure
  bind := Async.bind

/-- The page as it is now. -/
def read : Async σ Op A ε σ := .get .pure

def modify (f : σ → σ) : Async σ Op A ε Unit := .get fun s => .set (f s) (.pure ())

def ofExcept : Except ε α → Async σ Op A ε α
  | .ok a => .pure a
  | .error e => .throw e

/-- Run to the next wait. Waiting for nothing is no wait. -/
def run : Async σ Op A ε α → σ → σ × Status σ Op A ε α
  | .pure a, s            => (s, .returned a)
  | .throw e, s           => (s, .threw e)
  | .get k, s             => (k s).run s
  | .set s k, _           => k.run s
  | .all [] k, s          => (k []).run s
  | .all (op :: ops) k, s => (s, .waiting (op :: ops) k)

@[simp] theorem pure_eq (a : α) : (Pure.pure a : Async σ Op A ε α) = .pure a := rfl

@[simp] theorem bind_eq (p : Async σ Op A ε α) (f : α → Async σ Op A ε β) :
    p >>= f = p.bind f := rfl

end Async

/-! ## Contracts -/

/-- The operations answered so far, with their answers. -/
abbrev Log (Op A : Type) : Type := List (Op × A)

/-- The page, and what has been answered by then. -/
structure Moment (σ Op A : Type) where
  page : σ
  log : Log Op A

/-- Every operation of the list has its answer in the log. -/
def Answered (ops : List Op) (as : List A) (log : Log Op A) : Prop :=
  List.Forall₂ (fun op a => (op, a) ∈ log) ops as

/-- What holds between a conversation and the others. -/
structure Contract (σ Op A : Type) where
  /-- What may have happened when a wait is over. -/
  later : Moment σ Op A → Moment σ Op A → Prop
  /-- What a conversation may do to the page. -/
  change : (born : Nat) → Moment σ Op A → Moment σ Op A → Prop
  /-- When a conversation may go on with its answers. -/
  resumes : (born : Nat) → List Op → List A → Moment σ Op A → Prop
  later_refl : ∀ m, later m m
  later_trans : ∀ {m m' m''}, later m m' → later m' m'' → later m m''
  later_log : ∀ {m m'}, later m m' → ∀ x ∈ m.log, x ∈ m'.log
  change_refl : ∀ born m, change born m m
  change_trans : ∀ {born m m' m''}, change born m m' → change born m' m'' → change born m m''
  change_later : ∀ {born m m'}, change born m m' → later m m'
  resumes_nil : ∀ born m, resumes born [] [] m

variable {C : Contract σ Op A} {born : Nat} {m m' : Moment σ Op A} {ops : List Op}

/-- The weakest precondition of `Q`: of what the program returns or throws, and the moment
it does. -/
def Async.Wp (C : Contract σ Op A) (born : Nat) :
    Async σ Op A ε α → (Except ε α → Moment σ Op A → Prop) → Moment σ Op A → Prop
  | .pure a, Q, m    => Q (.ok a) m
  | .throw e, Q, m   => Q (.error e) m
  | .get k, Q, m     => (k m.page).Wp C born Q m
  | .set s k, Q, m   => C.change born m { m with page := s } ∧ k.Wp C born Q { m with page := s }
  | .all ops k, Q, m => ∀ as m', C.later m m' → Answered ops as m'.log →
      C.resumes born ops as m' → (k as).Wp C born Q m'

/-- What is left to show of a program that stopped at a wait or ended. -/
def Status.Wp (C : Contract σ Op A) (born : Nat) (Q : Except ε α → Moment σ Op A → Prop)
    (m : Moment σ Op A) : Status σ Op A ε α → Prop
  | .returned a    => Q (.ok a) m
  | .threw e       => Q (.error e) m
  | .waiting ops k => (Async.all ops k).Wp C born Q m

namespace Async

variable {p : Async σ Op A ε α} {Q Q' : Except ε α → Moment σ Op A → Prop}

/-! ### The rules -/

theorem Wp.mono (h : p.Wp C born Q m) (hQ : ∀ r m, Q r m → Q' r m) : p.Wp C born Q' m := by
  induction p generalizing m with
  | pure a => exact hQ _ _ h
  | throw e => exact hQ _ _ h
  | get k ih => exact ih _ h
  | set s k ih => exact ⟨h.1, ih h.2⟩
  | all ops k ih => exact fun as m' hm ha hr => ih as (h as m' hm ha hr)

/-- The postcondition of the first part of `p >>= f`. -/
def continued (C : Contract σ Op A) (born : Nat) (f : α → Async σ Op A ε β)
    (Q : Except ε β → Moment σ Op A → Prop) : Except ε α → Moment σ Op A → Prop
  | .ok a, m    => (f a).Wp C born Q m
  | .error e, m => Q (.error e) m

/-- The postcondition of what is tried. -/
def handled (C : Contract σ Op A) (born : Nat) (f : ε → Async σ Op A ε α)
    (Q : Except ε α → Moment σ Op A → Prop) : Except ε α → Moment σ Op A → Prop
  | .ok a, m    => Q (.ok a) m
  | .error e, m => (f e).Wp C born Q m

theorem wp_bind {f : α → Async σ Op A ε β} {Q : Except ε β → Moment σ Op A → Prop} :
    (p.bind f).Wp C born Q m ↔ p.Wp C born (continued C born f Q) m := by
  induction p generalizing m with
  | pure a => rfl
  | throw e => rfl
  | get k ih => exact ih _
  | set s k ih => exact and_congr .rfl ih
  | all ops k ih =>
      refine forall_congr' fun as => forall_congr' fun m' => ?_
      exact imp_congr .rfl (imp_congr .rfl (imp_congr .rfl (ih as)))

theorem wp_attempt {f : ε → Async σ Op A ε α} :
    (p.attempt f).Wp C born Q m ↔ p.Wp C born (handled C born f Q) m := by
  induction p generalizing m with
  | pure a => rfl
  | throw e => rfl
  | get k ih => exact ih _
  | set s k ih => exact and_congr .rfl ih
  | all ops k ih =>
      refine forall_congr' fun as => forall_congr' fun m' => ?_
      exact imp_congr .rfl (imp_congr .rfl (imp_congr .rfl (ih as)))

theorem wp_pure {a : α} : (.pure a : Async σ Op A ε α).Wp C born Q m ↔ Q (.ok a) m := .rfl

theorem wp_throw {e : ε} : (.throw e : Async σ Op A ε α).Wp C born Q m ↔ Q (.error e) m := .rfl

theorem wp_read {Q : Except ε σ → Moment σ Op A → Prop} :
    (read : Async σ Op A ε σ).Wp C born Q m ↔ Q (.ok m.page) m := .rfl

theorem wp_modify {f : σ → σ} {Q : Except ε Unit → Moment σ Op A → Prop} :
    (modify f : Async σ Op A ε Unit).Wp C born Q m
      ↔ C.change born m { m with page := f m.page } ∧ Q (.ok ()) { m with page := f m.page } :=
  .rfl

theorem wp_ofExcept {r : Except ε α} : (ofExcept r : Async σ Op A ε α).Wp C born Q m ↔ Q r m := by
  cases r <;> rfl

/-- The postcondition of a program that may throw anything. -/
def returning (Q : α → Moment σ Op A → Prop) : Except ε α → Moment σ Op A → Prop
  | .ok a, m    => Q a m
  | .error _, _ => True

/-! ### Loops and waits -/

/-- A loop keeps an invariant of the elements done so far. -/
theorem wp_foldlM {γ : Type} {f : β → γ → Async σ Op A ε β}
    {I : List γ → β → Moment σ Op A → Prop}
    (hf : ∀ done x b m, I done b m → (f b x).Wp C born (returning (I (done ++ [x]))) m)
    (xs : List γ) {done : List γ} {b : β} (h : I done b m) :
    (xs.foldlM f b).Wp C born (returning (I (done ++ xs))) m := by
  induction xs generalizing done b m with
  | nil => simpa [List.foldlM_nil, Wp, returning] using h
  | cons x xs ih =>
      rw [List.foldlM_cons, bind_eq, wp_bind]
      refine (hf done x b m h).mono fun r m' hr => ?_
      cases r with
      | error e => trivial
      | ok b' =>
          have h' := ih (show I (done ++ [x]) b' m' from hr)
          rw [List.append_assoc, List.singleton_append] at h'
          exact h'

/-- A wait may begin later than it does. -/
theorem Wp.later {k : List A → Async σ Op A ε α} (h : (Async.all ops k).Wp C born Q m)
    (hm : C.later m m') : (Async.all ops k).Wp C born Q m' :=
  fun as _ hm' ha hr => h as _ (C.later_trans hm hm') ha hr

/-- Up to the next wait the page changes as the contract allows. -/
theorem Wp.run (h : p.Wp C born Q m) :
    C.change born m { m with page := (p.run m.page).1 }
      ∧ (p.run m.page).2.Wp C born Q { m with page := (p.run m.page).1 } := by
  induction p generalizing m with
  | pure a => exact ⟨C.change_refl _ _, h⟩
  | throw e => exact ⟨C.change_refl _ _, h⟩
  | get k ih => exact ih _ h
  | set s k ih => exact ⟨C.change_trans h.1 (ih h.2).1, (ih h.2).2⟩
  | all ops k ih =>
      cases ops with
      | nil => exact ih [] (h [] m (C.later_refl m) .nil (C.resumes_nil born m))
      | cons op ops => exact ⟨C.change_refl _ _, h⟩

/-! ### What a program waits for -/

/-- Every list of operations the program may wait for satisfies `P`. -/
def Waits (P : List Op → Prop) : Async σ Op A ε α → Prop
  | .pure _    => True
  | .throw _   => True
  | .get k     => ∀ s, (k s).Waits P
  | .set _ k   => k.Waits P
  | .all ops k => P ops ∧ ∀ as, (k as).Waits P

variable {P : List Op → Prop}

theorem Waits.bind {f : α → Async σ Op A ε β} (hp : p.Waits P) (hf : ∀ a, (f a).Waits P) :
    (p >>= f).Waits P := by
  induction p with
  | pure a => exact hf a
  | throw e => trivial
  | get k ih => exact fun s => ih s (hp s)
  | set s k ih => exact ih hp
  | all ops k ih => exact ⟨hp.1, fun as => ih as (hp.2 as)⟩

theorem Waits.attempt {f : ε → Async σ Op A ε α} (hp : p.Waits P) (hf : ∀ e, (f e).Waits P) :
    (p.attempt f).Waits P := by
  induction p with
  | pure a => trivial
  | throw e => exact hf e
  | get k ih => exact fun s => ih s (hp s)
  | set s k ih => exact ih hp
  | all ops k ih => exact ⟨hp.1, fun as => ih as (hp.2 as)⟩

theorem Waits.foldlM {γ : Type} {f : β → γ → Async σ Op A ε β} (hf : ∀ b x, (f b x).Waits P)
    (xs : List γ) (b : β) : (xs.foldlM f b).Waits P := by
  induction xs generalizing b with
  | nil => trivial
  | cons x xs ih => exact (hf b x).bind ih

/-- The next wait is one of them. -/
theorem Waits.run {s : σ} {k : List A → Async σ Op A ε α} (hp : p.Waits P)
    (h : (p.run s).2 = .waiting ops k) : P ops ∧ ∀ as, (k as).Waits P := by
  induction p generalizing s with
  | pure a => cases h
  | throw e => cases h
  | get k ih => exact ih _ (hp s) h
  | set s k ih => exact ih hp h
  | all ops k ih =>
      cases ops with
      | nil => exact ih [] (hp.2 []) h
      | cons op ops =>
          cases h
          exact hp

end Async

end EventLoop
