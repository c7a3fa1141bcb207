import Mathlib.Logic.Relation
import CostEngine.EventLoop.Async

/-!
# The event loop

The page, and the conversations begun so far. An event is an act of the user, which begins a
conversation, or something that arrives for an operation a conversation waits for: it may
change the page by itself, and it may answer the operation. The conversation goes on in the
same event once all its operations are answered.

`Sound` says that every conversation keeps the contract from where it waits. One event keeps
it (`Sound.act`, `Sound.arrive`) if what goes on may go on.
-/

namespace EventLoop

variable {σ Op ρ A ν υ ε : Type}

/-- What an event loop does. -/
structure Loop (σ Op ρ A ν υ ε : Type) where
  /-- The first, synchronous part of an act, and the program that follows it. -/
  act : υ → σ → σ × Async σ Op A ε Unit
  /-- The birthday of a conversation that begins on the page. -/
  born : σ → Nat
  /-- An operation that begins. -/
  send : Op → σ → ρ
  /-- Something arrives: the page, and the operation's progress or answer. -/
  arrive : Op → ρ → ν → σ → Option (σ × (ρ ⊕ A))

/-- A conversation: what it waits for, and what it does with the answers. -/
structure Conversation (σ Op ρ A ε : Type) where
  born : Nat
  pending : List (Op × (ρ ⊕ A))
  rest : List A → Async σ Op A ε Unit

structure State (σ Op ρ A ε : Type) where
  page : σ
  conversations : List (Conversation σ Op ρ A ε)
  /-- The operations answered so far: the program has no access to it. -/
  log : Log Op A

namespace Conversation

def ops (c : Conversation σ Op ρ A ε) : List Op := c.pending.map (·.1)

/-- The answers, once there are all. -/
def answers (pending : List (Op × (ρ ⊕ A))) : Option (List A) :=
  pending.mapM (·.2.getRight?)

end Conversation

def State.moment (st : State σ Op ρ A ε) : Moment σ Op A := ⟨st.page, st.log⟩

inductive Event (υ ν : Type) : Type where
  | act (u : υ)
  | arrive (i j : Nat) (v : ν)
  deriving DecidableEq

namespace Loop

/-! ## The steps -/

/-- The log after something arrived. -/
def logged (log : Log Op A) (op : Op) : ρ ⊕ A → Log Op A
  | .inl _ => log
  | .inr a => log ++ [(op, a)]

variable (L : Loop σ Op ρ A ν υ ε)

/-- A conversation that waits as `status` says. One that ended waits for nothing. -/
def waiting (born : Nat) (s : σ) : Status σ Op A ε Unit → Conversation σ Op ρ A ε
  | .waiting ops k => ⟨born, ops.map fun op => (op, .inl (L.send op s)), k⟩
  | .returned _    => ⟨born, [], fun _ => .pure ()⟩
  | .threw _       => ⟨born, [], fun _ => .pure ()⟩

def actOn (u : υ) (st : State σ Op ρ A ε) : State σ Op ρ A ε :=
  let begun := L.act u st.page
  let ran := begun.2.run begun.1
  { st with
    page := ran.1
    conversations := st.conversations ++ [L.waiting (L.born begun.1) ran.1 ran.2] }

/-! ### Arrivals -/

/-- Conversation `i` goes on, if all it waits for is answered. -/
def settle (i : Nat) (c : Conversation σ Op ρ A ε) (pending : List (Op × (ρ ⊕ A)))
    (st : State σ Op ρ A ε) : State σ Op ρ A ε :=
  match Conversation.answers pending with
  | none => { st with conversations := st.conversations.set i { c with pending := pending } }
  | some as =>
      let ran := (c.rest as).run st.page
      { st with
        page := ran.1
        conversations := st.conversations.set i (L.waiting c.born ran.1 ran.2) }

/-- `v` arrives for the `j`-th operation of conversation `i`. -/
def arriveAt (i j : Nat) (v : ν) (st : State σ Op ρ A ε) : Option (State σ Op ρ A ε) :=
  match st.conversations[i]? with
  | none => none
  | some c =>
      match c.pending[j]? with
      | none => none
      | some (_, .inr _) => none
      | some (op, .inl r) =>
          match L.arrive op r v st.page with
          | none => none
          | some (s, x) =>
              some (L.settle i c (c.pending.set j (op, x))
                { st with page := s, log := logged st.log op x })

def step : Event υ ν → State σ Op ρ A ε → Option (State σ Op ρ A ε)
  | .act u, st         => some (L.actOn u st)
  | .arrive i j v, st  => L.arriveAt i j v st

/-! ### Runs -/

/-- An event that is admitted. -/
def StepWhere (P : State σ Op ρ A ε → Event υ ν → Prop) (st st' : State σ Op ρ A ε) : Prop :=
  ∃ ev, P st ev ∧ L.step ev st = some st'

/-- A run, all of whose events are admitted. -/
def RunWhere (P : State σ Op ρ A ε → Event υ ν → Prop) :
    State σ Op ρ A ε → State σ Op ρ A ε → Prop :=
  Relation.ReflTransGen (L.StepWhere P)

variable {L} {P : State σ Op ρ A ε → Event υ ν → Prop} {st st' : State σ Op ρ A ε} {i j : Nat}
  {v : ν} {C : Contract σ Op A}

/-! ### What an arrival consists of -/

/-- What arrives for a conversation. -/
structure Arrival (L : Loop σ Op ρ A ν υ ε) (i j : Nat) (v : ν) (st st' : State σ Op ρ A ε) where
  conversation : Conversation σ Op ρ A ε
  op : Op
  progress : ρ
  page : σ
  outcome : ρ ⊕ A
  conversation_eq : st.conversations[i]? = some conversation
  pending_eq : conversation.pending[j]? = some (op, .inl progress)
  arrive_eq : L.arrive op progress v st.page = some (page, outcome)
  settle_eq : st' = L.settle i conversation (conversation.pending.set j (op, outcome))
    { st with page := page, log := logged st.log op outcome }

namespace Arrival

variable (a : Arrival L i j v st st')

/-- The moment before the conversation goes on. -/
def moment : Moment σ Op A := ⟨a.page, logged st.log a.op a.outcome⟩

/-- What the conversation waits for, with the new arrival. -/
def pending : List (Op × (ρ ⊕ A)) := a.conversation.pending.set j (a.op, a.outcome)

end Arrival

theorem arriveAt_eq_some (h : L.arriveAt i j v st = some st') :
    Nonempty (Arrival L i j v st st') := by
  unfold arriveAt at h
  split at h
  · cases h
  · rename_i c hc
    split at h
    · cases h
    · cases h
    · rename_i op r hp
      split at h
      · cases h
      · rename_i s x hx
        exact ⟨c, op, r, s, x, hc, hp, hx, (Option.some.inj h).symm⟩

/-! ## Keeping a contract -/

/-- The acts begin programs that keep the contract, and nothing that arrives breaks what the
others count on. -/
structure Keeps (L : Loop σ Op ρ A ν υ ε) (C : Contract σ Op A) : Prop where
  act : ∀ u m, C.later m { m with page := (L.act u m.page).1 }
    ∧ (L.act u m.page).2.Wp C (L.born (L.act u m.page).1) (fun _ _ => True)
      { m with page := (L.act u m.page).1 }
  arrive : ∀ {op r v s x} {m : Moment σ Op A}, L.arrive op r v m.page = some (s, x) →
    C.later m ⟨s, logged m.log op x⟩

/-- What a conversation has to show for itself. -/
structure Good (C : Contract σ Op A) (m : Moment σ Op A) (c : Conversation σ Op ρ A ε) :
    Prop where
  answered : ∀ op a, (op, .inr a) ∈ c.pending → (op, a) ∈ m.log
  rest : (Async.all c.ops c.rest).Wp C c.born (fun _ _ => True) m

def Sound (C : Contract σ Op A) (st : State σ Op ρ A ε) : Prop :=
  ∀ c ∈ st.conversations, Good C st.moment c

/-! ### Good conversations -/

theorem Good.later {m m' : Moment σ Op A} {c : Conversation σ Op ρ A ε} (h : Good C m c)
    (hm : C.later m m') : Good C m' c :=
  ⟨fun op a ha => C.later_log hm _ (h.answered op a ha), h.rest.later hm⟩

@[simp] theorem waiting_born {born : Nat} {s : σ} {status : Status σ Op A ε Unit} :
    (L.waiting born s status).born = born := by
  cases status <;> rfl

/-! ### Waiting -/

/-- What is waited for has just begun. -/
theorem mem_waiting {born : Nat} {s : σ} {status : Status σ Op A ε Unit} {op : Op} {x : ρ ⊕ A}
    (h : (op, x) ∈ (L.waiting born s status).pending) : x = .inl (L.send op s) := by
  cases status with
  | returned a => cases h
  | threw e => cases h
  | waiting ops k =>
      obtain ⟨op', -, heq⟩ := List.mem_map.mp h
      obtain ⟨rfl, rfl⟩ := Prod.mk.inj heq
      rfl

theorem good_waiting {m : Moment σ Op A} {born : Nat} {s : σ} {status : Status σ Op A ε Unit}
    (h : status.Wp C born (fun _ _ => True) m) : Good C m (L.waiting born s status) := by
  cases status with
  -- Nothing is waited for, and nothing is left to do.
  | returned a => exact ⟨fun _ _ ha => (by cases ha), fun _ _ _ _ _ => trivial⟩
  | threw e => exact ⟨fun _ _ ha => (by cases ha), fun _ _ _ _ _ => trivial⟩
  | waiting ops k =>
      -- None of the operations is answered yet.
      refine ⟨fun op a ha => ?_, ?_⟩
      · obtain ⟨op', -, h'⟩ := List.mem_map.mp ha
        cases h'
      · have hops : Conversation.ops (L.waiting born s (.waiting ops k)) = ops := by
          simp [waiting, Conversation.ops, Function.comp_def]
        rw [hops]
        exact h

/-! ### Answers -/

/-- The answers are those of the operations, in their order. -/
theorem answers_answered {pending : List (Op × (ρ ⊕ A))} {as : List A} {log : Log Op A}
    (hlog : ∀ op a, (op, .inr a) ∈ pending → (op, a) ∈ log)
    (h : Conversation.answers pending = some as) : Answered (pending.map (·.1)) as log := by
  induction pending generalizing as with
  | nil =>
      cases h
      exact .nil
  | cons p pending ih =>
      simp only [Conversation.answers, List.mapM_cons, Option.bind_eq_bind,
        Option.bind_eq_some_iff] at h
      obtain ⟨a, ha, as', has, h⟩ := h
      cases h
      -- The answer that is read off is the one that arrived.
      have hp : p.2 = .inr a := Sum.getRight?_eq_some_iff.mp ha
      refine .cons (hlog _ _ ?_) (ih (fun op x hx => hlog op x (.tail _ hx)) has)
      rw [← hp]
      exact .head _

/-- Only answers count. -/
theorem answers_right {pending : List (Op × (ρ ⊕ A))} {as : List A}
    (h : Conversation.answers pending = some as) : ∀ p ∈ pending, p.2.isRight := by
  induction pending generalizing as with
  | nil => exact nofun
  | cons p pending ih =>
      simp only [Conversation.answers, List.mapM_cons, Option.bind_eq_bind,
        Option.bind_eq_some_iff] at h
      obtain ⟨a, ha, as', has, h⟩ := h
      refine List.forall_mem_cons.mpr ⟨?_, ih has⟩
      rw [Sum.getRight?_eq_some_iff.mp ha]
      rfl

/-! ### The moment after an arrival -/

theorem settle_moment {c : Conversation σ Op ρ A ε} {pending : List (Op × (ρ ⊕ A))} :
    (L.settle i c pending st).moment = match Conversation.answers pending with
      | none => st.moment
      | some as => ⟨((c.rest as).run st.page).1, st.log⟩ := by
  unfold settle
  split <;> rfl

namespace Arrival

variable {a : Arrival L i j v st st'}

theorem ops_eq (a : Arrival L i j v st st') : a.pending.map (·.1) = a.conversation.ops := by
  refine List.ext_getElem? fun k => ?_
  rw [pending, Conversation.ops, List.map_set, List.getElem?_set]
  split
  · -- The arrival is for one of the operations, which stays the same.
    rename_i hk
    obtain ⟨hlt, -⟩ := List.getElem?_eq_some_iff.mp a.pending_eq
    rw [← hk, if_pos (by rwa [List.length_map]), List.getElem?_map, a.pending_eq]
    rfl
  · rfl

theorem mem (a : Arrival L i j v st st') : a.conversation ∈ st.conversations :=
  List.mem_of_getElem? a.conversation_eq

theorem later (hK : L.Keeps C) (a : Arrival L i j v st st') : C.later st.moment a.moment :=
  hK.arrive a.arrive_eq

/-- The answers so far are in the log, the new one too. -/
theorem answered (hK : L.Keeps C) (hst : Sound C st) (a : Arrival L i j v st st') {op : Op}
    {answer : A} (h : (op, .inr answer) ∈ a.pending) : (op, answer) ∈ a.moment.log := by
  rcases List.mem_or_eq_of_mem_set h with h | h
  · exact C.later_log (a.later hK) _ ((hst _ a.mem).answered _ _ h)
  · obtain ⟨rfl, hx⟩ := Prod.mk.inj h
    simp [moment, logged, ← hx]

theorem pending_single (a : Arrival L i j v st st') {op : Op}
    (hops : a.conversation.ops = [op]) : a.pending = [(a.op, a.outcome)] ∧ a.op = op := by
  obtain ⟨p, hp, rfl⟩ := List.map_eq_singleton_iff.mp hops
  obtain ⟨hj, hpj⟩ := List.getElem?_eq_some_iff.mp a.pending_eq
  have hj0 : j = 0 := by simpa [hp] using hj
  subst hj0
  -- One operation, and this is it.
  have hop : p = (a.op, .inl a.progress) := by simpa [hp] using hpj
  exact ⟨by simp [pending, hp], by rw [hop]⟩

/-- A conversation that waits for one operation goes on with what arrived. -/
theorem single (a : Arrival L i j v st st') {op : Op} {answer : A}
    (hops : a.conversation.ops = [op]) (h : Conversation.answers a.pending = some [answer]) :
    a.op = op ∧ a.outcome = .inr answer := by
  obtain ⟨hpending, hop⟩ := a.pending_single hops
  rw [hpending] at h
  have h' : a.outcome = .inr answer := by
    simpa [Conversation.answers, Option.bind_eq_some_iff] using h
  exact ⟨hop, h'⟩

theorem answers_single (a : Arrival L i j v st st') {op : Op} {answer : A}
    (hops : a.conversation.ops = [op]) (h : a.outcome = .inr answer) :
    Conversation.answers a.pending = some [answer] := by
  rw [(a.pending_single hops).1, h]
  rfl

theorem moment_eq (a : Arrival L i j v st st') :
    st'.moment = match Conversation.answers a.pending with
      | none => a.moment
      | some as => ⟨((a.conversation.rest as).run a.page).1, a.moment.log⟩ := by
  conv_lhs => rw [a.settle_eq]
  exact settle_moment

end Arrival

/-! ### Soundness is kept -/

/-- The page after an arrival, and every conversation, are as the contract says. -/
theorem Sound.arrive (hK : L.Keeps C) (hst : Sound C st) (a : Arrival L i j v st st')
    (hr : ∀ as, Conversation.answers a.pending = some as →
      C.resumes a.conversation.born a.conversation.ops as a.moment) :
    Sound C st' ∧ C.change a.conversation.born a.moment st'.moment := by
  have hc := (hst _ a.mem).later (a.later hK)
  have hothers : ∀ c ∈ st.conversations, Good C a.moment c :=
    fun c hc => (hst c hc).later (a.later hK)
  -- All other conversations only have to live with a later moment.
  have hset : ∀ {m : Moment σ Op A} {c' : Conversation σ Op ρ A ε}, C.later a.moment m →
      Good C m c' → ∀ c ∈ st.conversations.set i c', Good C m c := by
    intro m c' hm hc' c hmem
    rcases List.mem_or_eq_of_mem_set hmem with hmem | rfl
    · exact (hothers c hmem).later hm
    · exact hc'
  have hm := a.moment_eq
  have hcs := a.settle_eq
  unfold settle at hcs
  change st' = match Conversation.answers a.pending with | none => _ | some as => _ at hcs
  cases has : Conversation.answers a.pending with
  -- Something is still open, so the page and the conversation wait.
  | none =>
      rw [has] at hm hcs
      refine ⟨?_, hm ▸ C.change_refl _ _⟩
      intro c hmem
      rw [hcs] at hmem
      rw [hm]
      refine hset (C.later_refl _) ⟨fun op x hx => a.answered hK hst hx, ?_⟩ c hmem
      have h := hc.rest
      rw [← a.ops_eq] at h
      exact h
  -- All is answered: the conversation goes on from here.
  | some as =>
      rw [has] at hm hcs
      have hAns : Answered a.conversation.ops as a.moment.log := by
        rw [← a.ops_eq]
        exact answers_answered (fun op x hx => a.answered hK hst hx) has
      have hrun := (hc.rest as _ (C.later_refl _) hAns (hr as has)).run
      refine ⟨?_, hm ▸ hrun.1⟩
      intro c hmem
      rw [hcs] at hmem
      rw [hm]
      exact hset (C.change_later hrun.1) (good_waiting hrun.2) c hmem

/-- A new conversation keeps the contract. -/
theorem Sound.act (hK : L.Keeps C) (hst : Sound C st) (u : υ) : Sound C (L.actOn u st) := by
  obtain ⟨hlater, hwp⟩ := hK.act u st.moment
  have hrun := hwp.run
  intro c hc
  rcases List.mem_append.mp hc with hc | hc
  · exact ((hst c hc).later hlater).later (C.change_later hrun.1)
  · obtain rfl := List.mem_singleton.mp hc
    exact good_waiting hrun.2

/-- Whatever is admitted may go on. -/
def Admits (L : Loop σ Op ρ A ν υ ε) (C : Contract σ Op A)
    (P : State σ Op ρ A ε → Event υ ν → Prop) : Prop :=
  ∀ {st st' i j v} (a : Arrival L i j v st st') {as}, P st (.arrive i j v) →
    Conversation.answers a.pending = some as →
    C.resumes a.conversation.born a.conversation.ops as a.moment

/-! ### Runs keep it -/

theorem Sound.later (hK : L.Keeps C) (hP : L.Admits C P) (hst : Sound C st)
    (h : L.StepWhere P st st') : C.later st.moment st'.moment := by
  obtain ⟨ev, hev, h⟩ := h
  cases ev with
  | act u =>
      cases h
      obtain ⟨hlater, hwp⟩ := hK.act u st.moment
      exact C.later_trans hlater (C.change_later hwp.run.1)
  | arrive i j v =>
      obtain ⟨a⟩ := arriveAt_eq_some h
      exact C.later_trans (a.later hK) (C.change_later (hst.arrive hK a fun as => hP a hev).2)

theorem Sound.step (hK : L.Keeps C) (hP : L.Admits C P) (hst : Sound C st)
    (h : L.StepWhere P st st') : Sound C st' := by
  obtain ⟨ev, hev, h⟩ := h
  cases ev with
  | act u =>
      cases h
      exact hst.act hK u
  | arrive i j v =>
      obtain ⟨a⟩ := arriveAt_eq_some h
      exact (hst.arrive hK a fun as => hP a hev).1

theorem Sound.run (hK : L.Keeps C) (hP : L.Admits C P) (hst : Sound C st)
    (h : L.RunWhere P st st') : Sound C st' := by
  induction h with
  | refl => exact hst
  | tail _ h ih => exact ih.step hK hP h

theorem Sound.run_later (hK : L.Keeps C) (hP : L.Admits C P) (hst : Sound C st)
    (h : L.RunWhere P st st') : C.later st.moment st'.moment := by
  induction h with
  | refl => exact C.later_refl _
  | tail h hs ih => exact C.later_trans ih ((hst.run hK hP h).later hK hP hs)

/-- As long as an operation is open, its conversation does not go on. -/
theorem Arrival.page_of_inl (a : Arrival L i j v st st') {r : ρ} (h : a.outcome = .inl r) :
    st'.page = a.page := by
  have hmem : (a.op, .inl r) ∈ a.pending := by
    obtain ⟨hj, -⟩ := List.getElem?_eq_some_iff.mp a.pending_eq
    rw [← h]
    exact List.mem_set hj _
  have hnone : Conversation.answers a.pending = none := by
    -- An open operation has no answer, so there are not all.
    cases has : Conversation.answers a.pending with
    | none => rfl
    | some as =>
        have hall := answers_right has _ hmem
        simp at hall
  have hm := a.moment_eq
  rw [hnone] at hm
  exact congrArg Moment.page hm

/-! ## Where a conversation comes from -/

/-- Conversations an event leaves: those before, the one an act began, and the one that
something arrived for, which still waits or has gone on. -/
theorem step_conversation {ev : Event υ ν} {c : Conversation σ Op ρ A ε}
    (h : L.step ev st = some st') (hc : c ∈ st'.conversations) :
    c ∈ st.conversations
      ∨ (∃ u, ev = .act u ∧ c = L.waiting (L.born (L.act u st.page).1) st'.page
          ((L.act u st.page).2.run (L.act u st.page).1).2)
      ∨ ∃ i j v, ev = .arrive i j v ∧ ∃ a : Arrival L i j v st st',
          (st'.page = a.page ∧ c = { a.conversation with pending := a.pending })
            ∨ ∃ as, c = L.waiting a.conversation.born st'.page
                ((a.conversation.rest as).run a.page).2 := by
  cases ev with
  | act u =>
      cases h
      rcases List.mem_append.mp hc with hc | hc
      · exact .inl hc
      · exact .inr (.inl ⟨u, rfl, List.mem_singleton.mp hc⟩)
  | arrive i j v =>
      obtain ⟨a⟩ := arriveAt_eq_some h
      have hsettle := a.settle_eq
      unfold settle at hsettle
      split at hsettle
      · have hpage : st'.page = a.page := congrArg State.page hsettle
        rw [congrArg State.conversations hsettle] at hc
        rcases List.mem_or_eq_of_mem_set hc with hc | rfl
        · exact .inl hc
        · exact .inr (.inr ⟨i, j, v, rfl, a, .inl ⟨hpage, rfl⟩⟩)
      · rename_i as _
        have hpage : st'.page = ((a.conversation.rest as).run a.page).1 :=
          congrArg State.page hsettle
        rw [congrArg State.conversations hsettle] at hc
        rcases List.mem_or_eq_of_mem_set hc with hc | rfl
        · exact .inl hc
        · exact .inr (.inr ⟨i, j, v, rfl, a, .inr ⟨as, by rw [hpage]⟩⟩)

/-- What arrives begins no conversation. -/
theorem arriveAt_born (h : L.arriveAt i j v st = some st') {c : Conversation σ Op ρ A ε}
    (hc : c ∈ st'.conversations) : ∃ c₀ ∈ st.conversations, c.born = c₀.born := by
  have hstep : L.step (.arrive i j v) st = some st' := h
  rcases step_conversation hstep hc with
    hc | ⟨u, hu, -⟩ | ⟨i, j, v, -, a, ⟨-, rfl⟩ | ⟨as, rfl⟩⟩
  · exact ⟨c, hc, rfl⟩
  · cases hu
  · exact ⟨_, a.mem, rfl⟩
  · exact ⟨_, a.mem, waiting_born⟩

/-! ### Waits of a certain kind -/

/-- A property of the waits that programs begin with and that is kept when they go on. -/
theorem waits_step {K : List Op → (List A → Async σ Op A ε Unit) → Prop} {ev : Event υ ν}
    (hend : K [] fun _ => .pure ())
    (hact : ∀ u s ops k, ((L.act u s).2.run (L.act u s).1).2 = .waiting ops k → K ops k)
    (hresume : ∀ ops k as s ops' k', K ops k → ((k as).run s).2 = .waiting ops' k' → K ops' k')
    (hst : ∀ c ∈ st.conversations, K c.ops c.rest) (h : L.step ev st = some st') :
    ∀ c ∈ st'.conversations, K c.ops c.rest := by
  have hwaiting : ∀ {born : Nat} {s : σ} (status : Status σ Op A ε Unit),
      (∀ ops k, status = .waiting ops k → K ops k) →
      K (L.waiting born s status).ops (L.waiting born s status).rest := by
    intro born s status hstatus
    cases status with
    | returned a => exact hend
    | threw e => exact hend
    | waiting ops k =>
        have hops : (L.waiting born s (.waiting ops k)).ops = ops := by
          simp [waiting, Conversation.ops, Function.comp_def]
        rw [hops]
        exact hstatus ops k rfl
  intro c hc
  rcases step_conversation h hc with hc | ⟨u, -, rfl⟩ | ⟨i, j, v, -, a, ⟨-, rfl⟩ | ⟨as, rfl⟩⟩
  · exact hst c hc
  · exact hwaiting _ fun ops k => hact u _ ops k
  · have hops : Conversation.ops { a.conversation with pending := a.pending } = a.conversation.ops :=
      a.ops_eq
    rw [hops]
    exact hst _ a.mem
  · exact hwaiting _ fun ops k => hresume _ _ as _ ops k (hst _ a.mem)

/-! ## Scripts -/

/-- The events of a script one after the other, as long as each passes the test. -/
def script (L : Loop σ Op ρ A ν υ ε) (test : State σ Op ρ A ε → Event υ ν → Bool) :
    List (Event υ ν) → State σ Op ρ A ε → Option (State σ Op ρ A ε)
  | [], st => some st
  | ev :: evs, st => if test st ev then (L.step ev st).bind (script L test evs) else none

theorem script_run {test : State σ Op ρ A ε → Event υ ν → Bool} {evs : List (Event υ ν)}
    (htest : ∀ st ev, test st ev = true → P st ev) (h : L.script test evs st = some st') :
    L.RunWhere P st st' := by
  induction evs generalizing st with
  | nil =>
      cases h
      exact .refl
  | cons ev evs ih =>
      unfold script at h
      split at h
      · rename_i hev
        obtain ⟨st₁, hstep, h⟩ := Option.bind_eq_some_iff.mp h
        exact .head ⟨ev, htest _ _ hev, hstep⟩ (ih h)
      · cases h

end Loop

end EventLoop
