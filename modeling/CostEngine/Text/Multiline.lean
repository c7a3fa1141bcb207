import Mathlib.Data.List.Basic

/-!
# Patterns that begin with `^`

What `matchAll` finds of a pattern that begins with `^` and has the flags `g` and `m`. The
pattern itself is the parameter `read`: what it captures at the front of a text, and how many
characters the match takes. The matches do not overlap, so a line that begins inside a match
is not looked at (`scan`). `lines` is what the pattern reads off *every* line; both agree
when nothing can be read off inside a match (`scan_eq_lines`).
-/

namespace Multiline

variable {α : Type}

/-- The line terminators of ECMAScript, after which `^` matches. -/
def isLineTerminator (c : Char) : Bool :=
  [0xA, 0xD, 0x2028, 0x2029].contains c.toNat

section

variable (read : List Char → Option (α × Nat))

/-- The matches from left to right. `start` says that a line begins here, and `skip` is how
many characters belong to the match before. -/
def scan (start : Bool) : (skip : Nat) → List Char → List α
  | _, [] => []
  | skip + 1, c :: cs => scan (isLineTerminator c) skip cs
  | 0, c :: cs =>
      match if start then read (c :: cs) else none with
      | none => scan (isLineTerminator c) 0 cs
      | some (a, length) => a :: scan (isLineTerminator c) (length - 1) cs

/-- `text.matchAll(pattern)`. -/
def matchAll (text : List Char) : List α := scan read true 0 text

/-- The text from each of its line starts on. -/
def lineStarts (start : Bool) : List Char → List (List Char)
  | [] => []
  | c :: cs =>
      if start then (c :: cs) :: lineStarts (isLineTerminator c) cs
      else lineStarts (isLineTerminator c) cs

/-- What the pattern reads off the lines of a text. -/
def lines (start : Bool) (text : List Char) : List α :=
  (lineStarts start text).filterMap fun line => (read line).map (·.1)

end

variable {read : List Char → Option (α × Nat)} {start : Bool} {skip : Nat} {text : List Char}

/-! ## Line starts -/

/-- A line starts where the text does, and after every line terminator. -/
theorem mem_lineStarts {line : List Char} : line ∈ lineStarts start text ↔
    line ≠ [] ∧ (line = text ∧ start = true
      ∨ ∃ before c, text = before ++ c :: line ∧ isLineTerminator c = true) := by
  induction text generalizing start with
  | nil =>
      refine ⟨fun h => absurd h List.not_mem_nil, ?_⟩
      rintro ⟨hne, ⟨rfl, -⟩ | ⟨before, c, htext, -⟩⟩
      · exact absurd rfl hne
      · simp at htext
  | cons c cs ih =>
      have hrest : (∃ before d, c :: cs = before ++ d :: line ∧ isLineTerminator d = true) ↔
          line = cs ∧ isLineTerminator c = true
            ∨ ∃ before d, cs = before ++ d :: line ∧ isLineTerminator d = true := by
        constructor
        · rintro ⟨before, d, htext, hd⟩
          cases before with
          | nil =>
              obtain ⟨rfl, rfl⟩ := List.cons_eq_cons.mp htext
              exact .inl ⟨rfl, hd⟩
          | cons b before => exact .inr ⟨before, d, (List.cons_eq_cons.mp htext).2, hd⟩
        · rintro (⟨rfl, hc⟩ | ⟨before, d, rfl, hd⟩)
          · exact ⟨[], c, rfl, hc⟩
          · exact ⟨c :: before, d, rfl, hd⟩
      rw [hrest]
      unfold lineStarts
      split
      · rename_i hstart
        rw [List.mem_cons, ih]
        constructor
        · rintro (rfl | ⟨hne, h⟩)
          · exact ⟨List.cons_ne_nil _ _, .inl ⟨rfl, hstart⟩⟩
          · exact ⟨hne, .inr h⟩
        · rintro ⟨hne, ⟨rfl, -⟩ | h⟩
          · exact .inl rfl
          · exact .inr ⟨hne, h⟩
      · rename_i hstart
        rw [ih]
        constructor
        · exact fun ⟨hne, h⟩ => ⟨hne, .inr h⟩
        · rintro ⟨hne, ⟨-, h⟩ | h⟩
          · exact absurd h hstart
          · exact ⟨hne, h⟩

/-- No two lines are the same part of the text. -/
theorem lineStarts_nodup : (lineStarts start text).Nodup := by
  induction text generalizing start with
  | nil => exact List.nodup_nil
  | cons c cs ih =>
      unfold lineStarts
      split
      · refine List.nodup_cons.mpr ⟨fun hmem => ?_, ih⟩
        rcases (mem_lineStarts.mp hmem).2 with ⟨h, -⟩ | ⟨before, d, h, -⟩
        · exact absurd (congrArg List.length h) (by simp)
        · have := congrArg List.length h
          simp only [List.length_append, List.length_cons] at this
          omega
      · exact ih

theorem filterMap_eq_singleton {β γ : Type} {f : β → Option γ} {l : List β} (hl : l.Nodup)
    {c : γ} : l.filterMap f = [c] ↔
      ∃ b ∈ l, f b = some c ∧ ∀ b' ∈ l, f b' ≠ none → b' = b := by
  induction l with
  | nil => simp
  | cons b l ih =>
      obtain ⟨hb, hl⟩ := List.nodup_cons.mp hl
      cases hf : f b with
      | none =>
          rw [List.filterMap_cons_none hf, ih hl]
          constructor
          · rintro ⟨x, hx, hfx, hall⟩
            refine ⟨x, List.mem_cons_of_mem _ hx, hfx, fun y hy hfy => ?_⟩
            rcases List.mem_cons.mp hy with rfl | hy
            · exact absurd hf hfy
            · exact hall y hy hfy
          · rintro ⟨x, hx, hfx, hall⟩
            rcases List.mem_cons.mp hx with rfl | hx
            · rw [hf] at hfx
              cases hfx
            · exact ⟨x, hx, hfx, fun y hy => hall y (List.mem_cons_of_mem _ hy)⟩
      | some d =>
          rw [List.filterMap_cons_some hf, List.cons_eq_cons, List.filterMap_eq_nil_iff]
          constructor
          · rintro ⟨rfl, hall⟩
            refine ⟨b, List.mem_cons_self, hf, fun y hy hfy => ?_⟩
            rcases List.mem_cons.mp hy with rfl | hy
            · rfl
            · exact absurd (hall y hy) hfy
          · rintro ⟨x, hx, hfx, hall⟩
            have hbx := hall b List.mem_cons_self (by rw [hf]; exact Option.some_ne_none _)
            subst hbx
            refine ⟨Option.some.inj (hf.symm.trans hfx), fun y hy => ?_⟩
            by_contra hfy
            exact hb (hall y (List.mem_cons_of_mem _ hy) hfy ▸ hy)

/-- Exactly one line is read as something with the property `p`. -/
theorem filter_lines_eq_singleton {p : α → Bool} {a : α} :
    (lines read start text).filter p = [a] ↔
      ∃ line ∈ lineStarts start text, (read line).map (·.1) = some a ∧ p a = true ∧
        ∀ line' ∈ lineStarts start text, ∀ b, (read line').map (·.1) = some b → p b = true →
          line' = line := by
  unfold lines
  rw [List.filter_filterMap, filterMap_eq_singleton lineStarts_nodup]
  have hsome : ∀ line b, ((read line).map (·.1)).filter p = some b ↔
      (read line).map (·.1) = some b ∧ p b = true := fun line b => Option.filter_eq_some_iff
  constructor
  · rintro ⟨line, hline, ha, hall⟩
    obtain ⟨hread, hp⟩ := (hsome line a).mp ha
    refine ⟨line, hline, hread, hp, fun line' hline' b hb hpb => hall line' hline' ?_⟩
    rw [(hsome line' b).mpr ⟨hb, hpb⟩]
    exact Option.some_ne_none b
  · rintro ⟨line, hline, hread, hp, hall⟩
    refine ⟨line, hline, (hsome line a).mpr ⟨hread, hp⟩, fun line' hline' hne => ?_⟩
    obtain ⟨b, hb⟩ := Option.ne_none_iff_exists'.mp hne
    obtain ⟨hb, hpb⟩ := (hsome line' b).mp hb
    exact hall line' hline' b hb hpb

@[simp] theorem lines_nil : lines read start [] = [] := rfl

theorem lines_cons (c : Char) (cs : List Char) : lines read start (c :: cs)
    = ((if start then read (c :: cs) else none).map (·.1)).toList
      ++ lines read (isLineTerminator c) cs := by
  unfold lines
  rw [lineStarts]
  cases start with
  | false => rfl
  | true =>
      rw [if_pos rfl, if_pos rfl, List.filterMap_cons]
      cases read (c :: cs) <;> rfl

/-! ## Matches and lines -/

/-- Every match is the reading of a line. -/
theorem scan_sublist : (scan read start skip text).Sublist (lines read start text) := by
  induction text generalizing start skip with
  | nil => cases skip <;> exact .slnil
  | cons c cs ih =>
      rw [lines_cons]
      cases skip with
      | succ skip => exact ih.trans (List.sublist_append_right _ _)
      | zero =>
          rw [scan]
          generalize (if start then read (c :: cs) else none) = r
          cases r with
          | none => exact ih
          | some m => exact List.Sublist.cons_cons m.1 ih

/-- If every match that was found is one inside which nothing can be read, the matches are
the readings of all lines. -/
theorem scan_eq_lines {good : α → Prop}
    (hgood : ∀ text a length, read text = some (a, length) → good a →
      ∀ k, 0 < k → k < length → read (text.drop k) = none)
    (hskip : ∀ k < skip, read (text.drop k) = none)
    (h : ∀ a ∈ scan read start skip text, good a) :
    scan read start skip text = lines read start text := by
  induction text generalizing start skip with
  | nil => cases skip <;> rfl
  | cons c cs ih =>
      rw [lines_cons]
      cases skip with
      | succ skip =>
          have hhere : read (c :: cs) = none := hskip 0 (Nat.zero_lt_succ _)
          rw [hhere, ite_self]
          exact ih (fun k hk => hskip (k + 1) (Nat.succ_lt_succ hk)) h
      | zero =>
          rw [scan] at h ⊢
          cases hr : (if start then read (c :: cs) else none) with
          | none =>
              rw [hr] at h
              exact ih (fun k hk => absurd hk (Nat.not_lt_zero k)) h
          | some m =>
              rw [hr] at h
              have hread : read (c :: cs) = some m := by
                cases start with
                | true => exact hr
                | false => cases hr
              refine congrArg (m.1 :: ·) (ih (fun k hk => ?_) fun a ha =>
                h a (List.mem_cons_of_mem _ ha))
              exact hgood (c :: cs) m.1 m.2 hread (h m.1 List.mem_cons_self) (k + 1)
                (Nat.succ_pos k) (by omega)

end Multiline
