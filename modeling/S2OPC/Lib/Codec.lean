import Mathlib

/-!
# S2OPC.Lib.Codec

Round trips of writers and readers that share one tape: a byte sequence with a cursor. A write may also
go back and patch bytes it has just written, so its effect is given as a whole by `splice`. `RoundTrip`
joins `Writes` and `Reads`, and composes in sequence.
-/

namespace S2OPC
namespace Codec

open List

section Splice

variable {α : Type}

def splice (l : List α) (p : Nat) (bs : List α) : List α :=
  l.take p ++ (bs ++ l.drop (p + bs.length))

theorem splice_nil (l : List α) (p : Nat) : splice l p [] = l := by
  simp [splice]

variable {bs l : List α}

variable {p : Nat}

theorem length_splice (hp : p ≤ l.length) :
    (splice l p bs).length = max l.length (p + bs.length) := by
  simp only [splice, length_append, length_take, length_drop]; omega

theorem take_splice (hp : p ≤ l.length) : (splice l p bs).take p = l.take p := by
  rw [splice, take_append_of_le_length (by simp [hp]), take_take, Nat.min_self]

theorem drop_splice (hp : p ≤ l.length) :
    (splice l p bs).drop p = bs ++ l.drop (p + bs.length) := by
  rw [splice, drop_append_of_le_length (by simp [hp])]; simp

theorem drop_splice_end (hp : p ≤ l.length) :
    (splice l p bs).drop (p + bs.length) = l.drop (p + bs.length) := by
  rw [← drop_drop, drop_splice hp]; simp

theorem splice_splice {a b : List α} (hp : p ≤ l.length) :
    splice (splice l p a) (p + a.length) b = splice l p (a ++ b) := by
  have htake : (splice l p a).take (p + a.length) = l.take p ++ a := by
    rw [splice, ← append_assoc, take_append_of_le_length (by simp [hp])]
    exact take_of_length_le (by simp [hp])
  have hdrop : (splice l p a).drop (p + a.length + b.length)
      = l.drop (p + (a ++ b).length) := by
    rw [← drop_drop, drop_splice_end hp, drop_drop, length_append, Nat.add_assoc]
  rw [splice, htake, hdrop]
  simp [splice]

theorem splice_patch {a b c b' : List α} (hp : p ≤ l.length) (hlen : b'.length = b.length) :
    splice (splice l p (a ++ (b ++ c))) (p + a.length) b' = splice l p (a ++ (b' ++ c)) := by
  have hin : p + a.length ≤ (splice l p a).length := by rw [length_splice hp]; omega
  rw [← splice_splice hp, ← splice_splice hp]
  generalize splice l p a = m at hin ⊢
  have htake : (splice m (p + a.length) (b ++ c)).take (p + a.length) = m.take (p + a.length) :=
    take_splice hin
  have hdrop : (splice m (p + a.length) (b ++ c)).drop (p + a.length)
      = (b ++ c) ++ m.drop (p + a.length + (b ++ c).length) :=
    drop_splice hin
  rw [splice, htake, ← drop_drop, hdrop, append_assoc, hlen, drop_left]
  simp [splice, hlen]

theorem splice_singleton {v : α} (hp : p < l.length) : splice l p [v] = l.set p v := by
  rw [set_eq_take_append_cons_drop, if_pos hp]; rfl

theorem mem_of_mem_splice {x : α} (h : x ∈ splice l p bs) : x ∈ l ∨ x ∈ bs := by
  simp only [splice, mem_append] at h
  rcases h with h | h | h
  · exact .inl (mem_of_mem_take h)
  · exact .inr h
  · exact .inl (mem_of_mem_drop h)

theorem splice_eq_self_iff : splice l p bs = l ↔ bs = (l.drop p).take bs.length := by
  have hl : l = l.take p ++ ((l.drop p).take bs.length ++ l.drop (p + bs.length)) := by
    rw [← drop_drop, take_append_drop, take_append_drop]
  constructor
  · intro h
    conv_rhs at h => rw [hl]
    exact append_cancel_right (append_cancel_left h)
  · intro h
    conv_rhs => rw [hl, ← h]
    rfl

end Splice

def leBytes : Nat → Nat → List UInt8
  | 0, _ => []
  | w + 1, n => UInt8.ofNat n :: leBytes w (n / 256)

def ofLeBytes : List UInt8 → Nat
  | [] => 0
  | b :: bs => b.toNat + 256 * ofLeBytes bs

@[simp] theorem length_leBytes (w n : Nat) : (leBytes w n).length = w := by
  induction w generalizing n with
  | zero => rfl
  | succ w ih => simp [leBytes, ih]

theorem ofLeBytes_leBytes (w n : Nat) : ofLeBytes (leBytes w n) = n % 256 ^ w := by
  induction w generalizing n with
  | zero => simp [leBytes, ofLeBytes, Nat.mod_one]
  | succ w ih =>
    have hpow : 256 ^ (w + 1) = 256 * 256 ^ w := Nat.pow_succ'
    rw [leBytes, ofLeBytes, ih, UInt8.toNat_ofNat', hpow, Nat.mod_mul]

/-- A state that holds bytes and a cursor within them. -/
class Tape (σ : Type) where
  bytes : σ → List UInt8
  pos : σ → Nat
  pos_le : ∀ s, pos s ≤ (bytes s).length

variable {ε σ α β : Type}

variable {x r : EStateM ε σ α} {k : α → EStateM ε σ β} {w : EStateM ε σ Unit}

theorem bind_ok {f : α → EStateM ε σ β} {s s' : σ} {b : β} :
    (x >>= f) s = .ok b s' ↔ ∃ a t, x s = .ok a t ∧ f a t = .ok b s' := by
  show EStateM.bind x f s = _ ↔ _
  unfold EStateM.bind
  cases x s with
  | ok a t =>
    constructor
    · intro h; exact ⟨a, t, rfl, h⟩
    · rintro ⟨_, _, heq, h⟩; cases heq; exact h
  | error e t =>
    constructor
    · intro h; cases h
    · rintro ⟨_, _, heq, _⟩; cases heq

theorem bind_of_ok {s t : σ} {a : α} (h : x s = .ok a t) (f : α → EStateM ε σ β) :
    (x >>= f) s = f a t := by
  show EStateM.bind x f s = _
  unfold EStateM.bind
  rw [h]

def succeeds (x : EStateM ε σ α) (s : σ) : Bool :=
  match x s with
  | .ok _ _ => true
  | .error _ _ => false

theorem succeeds_iff {s : σ} : succeeds x s = true ↔ ∃ a s', x s = .ok a s' := by
  unfold succeeds
  cases x s <;> simp

def mapError (f : ε → ε) (x : EStateM ε σ α) : EStateM ε σ α := fun s =>
  match x s with
  | .ok a s' => .ok a s'
  | .error e s' => .error (f e) s'

variable {f : ε → ε} {v : α}

@[simp] theorem mapError_ok {s s' : σ} {a : α} : mapError f x s = .ok a s' ↔ x s = .ok a s' := by
  unfold mapError
  cases x s <;> simp

variable [Tape σ]

open Tape

def Wrote (s s' : σ) (bs : List UInt8) : Prop :=
  bytes s' = splice (bytes s) (pos s) bs ∧ pos s' = pos s + bs.length

/-- Every success of `w` has put bytes satisfying `P` at the cursor. -/
def Writes (w : EStateM ε σ Unit) (P : List UInt8 → Prop) : Prop :=
  ∀ ⦃s s' : σ⦄, w s = .ok () s' → ∃ bs, P bs ∧ Wrote s s' bs

/-- Where the tape holds `bs` at the cursor, `r` consumes them and returns `v`. -/
def Reads (r : EStateM ε σ α) (bs : List UInt8) (v : α) : Prop :=
  ∀ ⦃s : σ⦄ ⦃rest : List UInt8⦄, (bytes s).drop (pos s) = bs ++ rest →
    ∃ s', r s = .ok v s' ∧ bytes s' = bytes s ∧ pos s' = pos s + bs.length

def RoundTrip (w : EStateM ε σ Unit) (r : EStateM ε σ α) (v : α) : Prop :=
  Writes w fun bs => Reads r bs v

theorem Wrote.trans {s t u : σ} {a b : List UInt8} (h₁ : Wrote s t a) (h₂ : Wrote t u b) :
    Wrote s u (a ++ b) := by
  obtain ⟨hb₁, hp₁⟩ := h₁
  obtain ⟨hb₂, hp₂⟩ := h₂
  refine ⟨?_, by rw [hp₂, hp₁, length_append, Nat.add_assoc]⟩
  rw [hb₂, hb₁, hp₁, splice_splice (pos_le s)]

theorem Reads.pure (v : α) : Reads (pure v : EStateM ε σ α) [] v := by
  intro s rest _; exact ⟨s, rfl, rfl, rfl⟩

theorem Reads.bind {a b : List UInt8} {u : β} (hr : Reads r a v) (hk : Reads (k v) b u) :
    Reads (r >>= k) (a ++ b) u := by
  intro s rest hs
  have hsa : (bytes s).drop (pos s) = a ++ (b ++ rest) := by rw [hs, append_assoc]
  obtain ⟨t, hrt, htb, htp⟩ := hr hsa
  have ht : (bytes t).drop (pos t) = b ++ rest := by rw [htb, htp, ← drop_drop, hs]; simp
  obtain ⟨t', hkt, hb', hp'⟩ := hk ht
  refine ⟨t', bind_ok.mpr ⟨v, t, hrt, hkt⟩, hb'.trans htb, ?_⟩
  rw [hp', htp, length_append, Nat.add_assoc]

theorem Reads.finish {bs : List UInt8} {u : β} (hr : Reads r bs v) (hk : k v = Pure.pure u) :
    Reads (r >>= k) bs u := by
  have := hr.bind (k := k) (hk ▸ Reads.pure u); rwa [append_nil] at this

theorem Reads.mapError {bs : List UInt8} (hr : Reads r bs v) : Reads (mapError f r) bs v := by
  intro s rest hs; obtain ⟨t, hrt, ht⟩ := hr hs; exact ⟨t, mapError_ok.mpr hrt, ht⟩

theorem Writes.imp {P Q : List UInt8 → Prop} (h : Writes w P) (himp : ∀ bs, P bs → Q bs) :
    Writes w Q := by
  intro s s' hw; obtain ⟨bs, hP, hwr⟩ := h hw; exact ⟨bs, himp bs hP, hwr⟩

theorem RoundTrip.pure (v : α) :
    RoundTrip (pure () : EStateM ε σ Unit) (pure v : EStateM ε σ α) v := by
  intro s s' hw; cases hw
  refine ⟨[], Reads.pure v, ?_, rfl⟩
  rw [splice_nil]

theorem RoundTrip.bind {w₁ w₂ : EStateM ε σ Unit} {u : β} (h₁ : RoundTrip w₁ r v)
    (h₂ : RoundTrip w₂ (k v) u) : RoundTrip (w₁ >>= fun _ => w₂) (r >>= k) u := by
  intro s s' hw; obtain ⟨_, t, hw₁, hw₂⟩ := bind_ok.mp hw
  obtain ⟨a, ha, hsa⟩ := h₁ hw₁
  obtain ⟨b, hb, htb⟩ := h₂ hw₂
  exact ⟨a ++ b, ha.bind hb, hsa.trans htb⟩

theorem RoundTrip.finish {u : β} (h : RoundTrip w r v) (hk : k v = Pure.pure u) :
    RoundTrip w (r >>= k) u :=
  Writes.imp h fun _ hbs => hbs.finish hk

theorem RoundTrip.map (f : α → β) (h : RoundTrip w r v) :
    RoundTrip w (r >>= fun a => Pure.pure (f a)) (f v) :=
  h.finish rfl

theorem RoundTrip.throw (e : ε) (r : EStateM ε σ α) (v : α) :
    RoundTrip (throw e : EStateM ε σ Unit) r v := by
  intro s s' hw; cases hw

theorem RoundTrip.congr {u : α} (h : RoundTrip w r u) (huv : u = v) : RoundTrip w r v := huv ▸ h

theorem RoundTrip.mapError_write (h : RoundTrip w r v) : RoundTrip (mapError f w) r v := by
  intro s s' hw; exact h (mapError_ok.mp hw)

theorem RoundTrip.mapError_read (h : RoundTrip w r v) : RoundTrip w (mapError f r) v :=
  Writes.imp h fun _ hbs => hbs.mapError

def writeIf (c : Prop) [Decidable c] (w : EStateM ε σ Unit) : EStateM ε σ Unit :=
  if c then w else Pure.pure ()

def readIf (c : Prop) [Decidable c] (r : EStateM ε σ α) (d : α) : EStateM ε σ α :=
  if c then r else Pure.pure d

theorem RoundTrip.optional {c c' : Prop} [Decidable c] [Decidable c'] {d : α} (hcc : c ↔ c')
    (h : c → RoundTrip w r v) (hd : ¬ c → v = d) : RoundTrip (writeIf c w) (readIf c' r d) v := by
  unfold writeIf readIf
  by_cases hc : c
  · rw [if_pos hc, if_pos (hcc.mp hc)]; exact h hc
  · rw [if_neg hc, if_neg fun hc' => hc (hcc.mpr hc')]; exact (RoundTrip.pure d).congr (hd hc).symm

def writeAll (w : α → EStateM ε σ Unit) : List α → EStateM ε σ Unit
  | [] => pure ()
  | x :: xs => do w x; writeAll w xs

def readMany (r : EStateM ε σ α) : Nat → EStateM ε σ (List α)
  | 0 => pure []
  | n + 1 => do
    let x ← r
    let xs ← readMany r n
    pure (x :: xs)

theorem RoundTrip.list {w : α → EStateM ε σ Unit} {r : EStateM ε σ β} {f : α → β} {xs : List α}
    (h : ∀ x ∈ xs, RoundTrip (w x) r (f x)) :
    RoundTrip (writeAll w xs) (readMany r xs.length) (xs.map f) := by
  induction xs with
  | nil => exact RoundTrip.pure []
  | cons x xs ih =>
    have hx := h x (by simp)
    have hxs := ih fun y hy => h y (by simp [hy])
    exact hx.bind (hxs.map (f x :: ·))

theorem RoundTrip.reread (h : RoundTrip w r v) {s s' t : σ} (hw : w s = .ok () s')
    (hbytes : bytes t = bytes s') (hpos : pos t = pos s) :
    ∃ t', r t = .ok v t' ∧ bytes t' = bytes s' ∧ pos t' = pos s' := by
  obtain ⟨bs, hbs, hb, hp⟩ := h hw
  have ht : (bytes t).drop (pos t) = bs ++ (bytes s).drop (pos s + bs.length) := by
    rw [hbytes, hpos, hb, drop_splice (pos_le s)]
  obtain ⟨t', hrt, hb', hp'⟩ := hbs ht
  exact ⟨t', hrt, hb'.trans hbytes, by rw [hp', hpos, hp]⟩

end Codec
end S2OPC
