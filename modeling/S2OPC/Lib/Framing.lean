import Mathlib

/-!
# S2OPC.Lib.Framing

Cutting a stream that arrives in segments into pieces. A `Framer` asks for more, refuses the front of
what has arrived, or cuts a piece off; what it answers does not change when more arrives. Each piece is
handed to a consumer with a state, which may refuse it.
-/

namespace S2OPC
namespace Framing

open List

variable {α ε γ σ : Type}

inductive Cut (ε γ : Type) where
  | more
  | bad (e : ε)
  | piece (length : Nat) (c : γ)

structure Framer (α ε γ : Type) where
  cut : List α → Cut ε γ
  cut_nil : cut [] = .more
  piece_length : ∀ {xs n c}, cut xs = .piece n c → 0 < n ∧ n ≤ xs.length
  stable : ∀ {xs} ys, cut xs ≠ .more → cut (xs ++ ys) = cut xs

namespace Framer

variable (F : Framer α ε γ) (consume : σ → γ → Except ε σ)

/-- The pieces that were cut, and the error or the state of the consumer with what is left. -/
abbrev Parsed (α ε γ σ : Type) := List γ × Except ε (σ × List α)

def andThen (r : Parsed α ε γ σ) (next : σ → List α → Parsed α ε γ σ) : Parsed α ε γ σ :=
  match r.2 with
  | .error e => (r.1, .error e)
  | .ok (s, rest) => (r.1 ++ (next s rest).1, (next s rest).2)

def parseStep (next : σ → List α → Parsed α ε γ σ) (s : σ) (xs : List α) : Parsed α ε γ σ :=
  match F.cut xs with
  | .more => ([], .ok (s, xs))
  | .bad e => ([], .error e)
  | .piece n c =>
    match consume s c with
    | .error e => ([c], .error e)
    | .ok t => (c :: (next t (xs.drop n)).1, (next t (xs.drop n)).2)

def parseFuel : Nat → σ → List α → Parsed α ε γ σ
  | 0 => fun s xs => ([], .ok (s, xs))
  | fuel + 1 => F.parseStep consume (parseFuel fuel)

def parse (s : σ) (xs : List α) : Parsed α ε γ σ := F.parseFuel consume xs.length s xs

variable {F consume}

variable {next : σ → List α → Parsed α ε γ σ} {s t : σ} {xs rest : List α} {n : Nat} {e : ε} {c : γ}

theorem parseStep_nil :
    F.parseStep consume next s [] = ([], .ok (s, [])) := by
  simp [parseStep, F.cut_nil]

theorem parseStep_congr {next' : σ → List α → Parsed α ε γ σ}
    (h : ∀ n t, 0 < n → n ≤ xs.length → next t (xs.drop n) = next' t (xs.drop n)) :
    F.parseStep consume next s xs = F.parseStep consume next' s xs := by
  simp only [parseStep]
  cases hcut : F.cut xs with
  | more => rfl
  | bad e => rfl
  | piece n c =>
    obtain ⟨hpos, hle⟩ := F.piece_length hcut
    cases hc : consume s c with
    | error e => simp [hc]
    | ok t => simp [hc, h n t hpos hle]

theorem parseFuel_congr {m : Nat} (hm : xs.length ≤ m) (hn : xs.length ≤ n) :
    F.parseFuel consume m s xs = F.parseFuel consume n s xs := by
  induction m generalizing n xs s with
  | zero =>
    obtain rfl := length_eq_zero_iff.mp (Nat.le_zero.mp hm)
    cases n with
    | zero => rfl
    | succ n => exact parseStep_nil.symm
  | succ m ih =>
    cases n with
    | zero => obtain rfl := length_eq_zero_iff.mp (Nat.le_zero.mp hn); exact parseStep_nil
    | succ n =>
      refine parseStep_congr fun k t hpos hle => ih ?_ ?_
      · rw [length_drop]; omega
      · rw [length_drop]; omega

theorem parse_eq (s : σ) (xs : List α) :
    F.parse consume s xs = F.parseStep consume (F.parse consume) s xs := by
  cases xs with
  | nil => exact parseStep_nil.symm
  | cons x xs =>
    refine parseStep_congr fun n t hpos hle => parseFuel_congr ?_ (Nat.le_refl _)
    simp; omega

theorem parse_more (h : F.cut xs = .more) :
    F.parse consume s xs = ([], .ok (s, xs)) := by
  rw [parse_eq]; simp [parseStep, h]

theorem parse_bad (h : F.cut xs = .bad e) :
    F.parse consume s xs = ([], .error e) := by
  rw [parse_eq]; simp [parseStep, h]

theorem parse_refused (h : F.cut xs = .piece n c)
    (hc : consume s c = .error e) : F.parse consume s xs = ([c], .error e) := by
  rw [parse_eq]; simp [parseStep, h, hc]

theorem parse_piece (h : F.cut xs = .piece n c)
    (hc : consume s c = .ok t) :
    F.parse consume s xs =
      (c :: (F.parse consume t (xs.drop n)).1, (F.parse consume t (xs.drop n)).2) := by
  rw [parse_eq]
  simp [parseStep, h, hc]

/-- The induction of `parse`: what holds of a stream if it holds of the rest behind its first piece. -/
theorem parse_induction (F : Framer α ε γ) (consume : σ → γ → Except ε σ) {P : σ → List α → Prop}
    (h : ∀ s xs, (∀ n c t, F.cut xs = .piece n c → consume s c = .ok t → P t (xs.drop n)) → P s xs)
    (s : σ) (xs : List α) : P s xs := by
  have hlen : ∀ (m : Nat) (s : σ) (xs : List α), xs.length ≤ m → P s xs := by
    intro m
    induction m with
    | zero =>
      intro s xs hm
      refine h s xs fun n c t hcut _ => ?_
      obtain ⟨hpos, hle⟩ := F.piece_length hcut
      omega
    | succ m ih =>
      intro s xs hm
      refine h s xs fun n c t hcut _ => ih t (xs.drop n) ?_
      obtain ⟨hpos, hle⟩ := F.piece_length hcut
      rw [length_drop]
      omega
  exact hlen xs.length s xs (Nat.le_refl _)

theorem cut_rest (h : (F.parse consume s xs).2 = .ok (t, rest)) :
    F.cut rest = .more := by
  revert h
  refine parse_induction F consume
    (P := fun s xs => (F.parse consume s xs).2 = .ok (t, rest) → F.cut rest = .more)
    (fun s xs ih h => ?_) s xs
  cases hcut : F.cut xs with
  | more => rw [parse_more hcut] at h; cases h; exact hcut
  | bad e => rw [parse_bad hcut] at h; cases h
  | piece n c =>
    cases hc : consume s c with
    | error e => rw [parse_refused hcut hc] at h; cases h
    | ok u => rw [parse_piece hcut hc] at h; exact ih n c u hcut hc h

theorem parse_append (s : σ) (xs ys : List α) :
    F.parse consume s (xs ++ ys) =
      andThen (F.parse consume s xs) fun t rest => F.parse consume t (rest ++ ys) := by
  refine parse_induction F consume
    (P := fun s xs => F.parse consume s (xs ++ ys) =
      andThen (F.parse consume s xs) fun t rest => F.parse consume t (rest ++ ys))
    (fun s xs ih => ?_) s xs
  cases hcut : F.cut xs with
  | more => rw [parse_more hcut]; simp [andThen]
  | bad e =>
    have hcut' : F.cut (xs ++ ys) = .bad e := by rw [F.stable ys (by simp [hcut]), hcut]
    rw [parse_bad hcut, parse_bad hcut']
    rfl
  | piece n c =>
    have hcut' : F.cut (xs ++ ys) = .piece n c := by rw [F.stable ys (by simp [hcut]), hcut]
    obtain ⟨-, hle⟩ := F.piece_length hcut
    cases hc : consume s c with
    | error e => rw [parse_refused hcut hc, parse_refused hcut' hc]; rfl
    | ok t =>
      rw [parse_piece hcut hc, parse_piece hcut' hc, drop_append_of_le_length hle, ih n c t hcut hc]
      simp only [andThen]
      cases (F.parse consume t (xs.drop n)).2 <;> rfl

/-- What the beginning of a stream comes to, if the whole stream is accepted. -/
theorem parse_beginning {xs ys : List α} (h : (F.parse consume s (xs ++ ys)).2 = .ok (t, rest)) :
    ∃ s' held, (F.parse consume s xs).2 = .ok (s', held) ∧
      (F.parse consume s' (held ++ ys)).2 = .ok (t, rest) := by
  rw [parse_append, andThen] at h
  cases hp : (F.parse consume s xs).2 with
  | error e => rw [hp] at h; cases h
  | ok p => rw [hp] at h; exact ⟨p.1, p.2, rfl, h⟩

/-- What relates the states before and after each piece relates those before and after a stream. -/
theorem parse_rel {R : σ → σ → Prop} (hrefl : ∀ s, R s s) (htrans : ∀ {s t u}, R s t → R t u → R s u)
    (hconsume : ∀ {s c t}, consume s c = .ok t → R s t) {xs : List α}
    (h : (F.parse consume s xs).2 = .ok (t, rest)) : R s t := by
  revert h
  refine parse_induction F consume
    (P := fun s xs => (F.parse consume s xs).2 = .ok (t, rest) → R s t) (fun s xs ih h => ?_) s xs
  cases hcut : F.cut xs with
  | more => rw [parse_more hcut] at h; cases h; exact hrefl _
  | bad e => rw [parse_bad hcut] at h; cases h
  | piece n c =>
    cases hc : consume s c with
    | error e => rw [parse_refused hcut hc] at h; cases h
    | ok s' =>
      rw [parse_piece hcut hc] at h
      exact htrans (hconsume hc) (ih n c s' hcut hc h)

variable (F consume)

/-- Segment after segment, each put behind what is left, up to the first error. -/
def feedAll : σ → List α → List (List α) → Parsed α ε γ σ
  | s, rest, [] => ([], .ok (s, rest))
  | s, rest, seg :: segs =>
    andThen (F.parse consume s (rest ++ seg)) fun t rest' => feedAll t rest' segs

variable {F consume}

theorem feedAll_eq {segs : List (List α)} (hrest : F.cut rest = .more) :
    F.feedAll consume s rest segs = F.parse consume s (rest ++ segs.flatten) := by
  induction segs generalizing s rest with
  | nil => rw [flatten_nil, append_nil, parse_more hrest]; rfl
  | cons seg segs ih =>
    rw [flatten_cons, ← append_assoc, parse_append]
    simp only [feedAll]
    cases h : (F.parse consume s (rest ++ seg)).2 with
    | error e => simp [andThen, h]
    | ok r => obtain ⟨t, rest'⟩ := r; simp [andThen, h, ih (cut_rest h)]

end Framer
end Framing
end S2OPC
