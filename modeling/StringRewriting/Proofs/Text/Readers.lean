import StringRewriting.Text.Lines

/-!
# Readers of texts

A reader takes something from the front of a text and gives back what remains, or it fails. Readers
are put together from simpler ones in a few ways. How these are carried out is left open: what is
proved of readers holds for all ways that obey the laws stated here.

* `Reader.Alternates`: separators and elements in turn.
* `Combinators.Lawful`: the laws.
* `Combinators.plain`, `Combinators.plain_lawful`: ways to put readers together that obey them.
-/

namespace StringRewriting

/-! ## Readers -/

namespace Reader

/-- Why a reader fails. -/
inductive Cause where
  /-- A symbol that must stand there does not. -/
  | symbol
  /-- Something stands there that should have been read. -/
  | unread
  /-- A separator was read that is empty, so that it could be read for ever. -/
  | endless
  deriving DecidableEq, Repr

/-- A failure and what was still to be read. -/
structure Fault where
  /-- Why the reader failed. -/
  cause : Cause
  /-- The text from the place of the failure on. -/
  rest : Text
  deriving DecidableEq, Repr

end Reader

/-- What stands at the front of a text with what remains of the text, or a failure. -/
abbrev Reader (α : Type) := Text → Except Reader.Fault (α × Text)

namespace Reader

variable {α β : Type}

/-- Separators and elements stand in turn at the front of a text, as long as both are there. A
separator that no element follows is not read. -/
inductive Alternates (sep : Reader β) (elem : Reader α) : Text → List α → Text → Prop
  /-- There is no further separator. -/
  | noSeparator {t : Text} {e : Fault} (hsep : sep t = .error e) : Alternates sep elem t [] t
  /-- There is no element behind a separator. -/
  | noElement {t t₁ : Text} {b : β} {e : Fault} (hsep : sep t = .ok (b, t₁))
      (hlt : t₁.length < t.length) (helem : elem t₁ = .error e) : Alternates sep elem t [] t
  /-- An element, which may be empty, stands behind a separator, which may not. -/
  | more {t t₁ t₂ rest : Text} {b : β} {a : α} {as : List α} (hsep : sep t = .ok (b, t₁))
      (hlt : t₁.length < t.length) (helem : elem t₁ = .ok (a, t₂)) (hle : t₂.length ≤ t₁.length)
      (h : Alternates sep elem t₂ as rest) : Alternates sep elem t (a :: as) rest

end Reader

/-- Ways to put readers together. -/
structure Combinators where
  /-- Reads up to the first symbol of a kind. -/
  takeTill : (Char → Bool) → Reader Text
  /-- Reads a given symbol. -/
  symbol : Char → Reader Char
  /-- Reads two things with a third in between, which is dropped. -/
  separatedPair : {α β γ : Type} → Reader α → Reader β → Reader γ → Reader (α × γ)
  /-- Reads things of one kind, with things of another kind in between that are dropped. -/
  separatedList : {α β : Type} → Reader β → Reader α → Reader (List α)
  /-- Reads a whole text. -/
  allConsuming : {α : Type} → Reader α → Reader α

namespace Combinators

/-- The laws of putting readers together. -/
structure Lawful (k : Combinators) : Prop where
  /-- As much as possible is read, which may be nothing. -/
  takeTill (p : Char → Bool) (t : Text) :
    k.takeTill p t = .ok (t.takeWhile (!p ·), t.dropWhile (!p ·))
  /-- A symbol is read if it stands at the front. -/
  symbol_cons (c : Char) (t : Text) : k.symbol c (c :: t) = .ok (c, t)
  /-- It is missed where it does not. -/
  symbol_of_head?_ne (c : Char) (t : Text) (h : t.head? ≠ some c) :
    k.symbol c t = .error ⟨.symbol, t⟩
  /-- Three readers follow each other, and the first failure counts. -/
  separatedPair {α β γ : Type} (first : Reader α) (sep : Reader β) (second : Reader γ) (t : Text) :
    k.separatedPair first sep second t = do
      let (a, t₁) ← first t
      let (_, t₂) ← sep t₁
      let (c, t₃) ← second t₂
      return ((a, c), t₃)
  /-- A list may be empty. -/
  separatedList_of_error {α β : Type} (sep : Reader β) (elem : Reader α) {t : Text}
    {e : Reader.Fault} (h : elem t = .error e) : k.separatedList sep elem t = .ok ([], t)
  /-- Behind its first element a list goes on as long as separators and elements stand in turn. -/
  separatedList_of_ok {α β : Type} (sep : Reader β) (elem : Reader α) {t t₁ rest : Text} {a : α}
    {as : List α} (h : elem t = .ok (a, t₁)) (hmore : Reader.Alternates sep elem t₁ as rest) :
    k.separatedList sep elem t = .ok (a :: as, rest)
  /-- What a reader fails to read is not read. -/
  allConsuming_of_error {α : Type} (r : Reader α) {t : Text} {e : Reader.Fault}
    (h : r t = .error e) : k.allConsuming r t = .error e
  /-- A whole text is read if nothing remains of it. -/
  allConsuming_of_nil {α : Type} (r : Reader α) {t : Text} {a : α} (h : r t = .ok (a, [])) :
    k.allConsuming r t = .ok (a, [])
  /-- What remains is the place of the failure. -/
  allConsuming_of_cons {α : Type} (r : Reader α) {t rest : Text} {a : α} {c : Char}
    (h : r t = .ok (a, c :: rest)) : k.allConsuming r t = .error ⟨.unread, c :: rest⟩

namespace Lawful

variable {k : Combinators}

theorem symbol_nil (hk : k.Lawful) (c : Char) : k.symbol c [] = .error ⟨.symbol, []⟩ :=
  hk.symbol_of_head?_ne c [] (by simp)

theorem takeTill_cons_of_stop (hk : k.Lawful) {p : Char → Bool} {c : Char} (hc : p c = true)
    (t : Text) : k.takeTill p (c :: t) = .ok ([], c :: t) := by
  simp [hk.takeTill, hc]

theorem takeTill_cons_of_pass (hk : k.Lawful) {p : Char → Bool} {c : Char} {t a rest : Text}
    (hc : p c = false) (ht : k.takeTill p t = .ok (a, rest)) :
    k.takeTill p (c :: t) = .ok (c :: a, rest) := by
  rw [hk.takeTill, Except.ok.injEq, Prod.mk.injEq] at ht
  simp [hk.takeTill, hc, ht.1, ht.2]

end Lawful

end Combinators

/-! ## Readers that obey the laws -/

namespace Reader

variable {α β : Type}

/-- Elements behind separators, as long as both are there. Neither may give back more than it got,
and a separator must not be empty. -/
def alternate (sep : Reader β) (elem : Reader α) (t : Text) : Except Fault (List α × Text) :=
  match sep t with
  | .error _ => .ok ([], t)
  | .ok (_, t₁) =>
    if _hlt : t₁.length < t.length then
      match elem t₁ with
      | .error _ => .ok ([], t)
      | .ok (a, t₂) =>
        if _hle : t₂.length ≤ t₁.length then
          (alternate sep elem t₂).map fun r => (a :: r.1, r.2)
        else .error ⟨.endless, t₂⟩
    else .error ⟨.endless, t₁⟩
termination_by t.length

theorem Alternates.alternate_eq {sep : Reader β} {elem : Reader α} {t rest : Text} {as : List α}
    (h : Alternates sep elem t as rest) : alternate sep elem t = .ok (as, rest) := by
  induction h with
  | noSeparator hsep =>
    rw [alternate, hsep]
  | noElement hsep hlt helem =>
    rw [alternate, hsep]
    simp only [dif_pos hlt, helem]
  | more hsep hlt helem hle _ ih =>
    rw [alternate, hsep]
    simp only [dif_pos hlt, helem, dif_pos hle, ih]
    rfl

/-- An element and those behind separators. -/
def list (sep : Reader β) (elem : Reader α) : Reader (List α) := fun t =>
  match elem t with
  | .error _ => .ok ([], t)
  | .ok (a, t₁) => (alternate sep elem t₁).map fun r => (a :: r.1, r.2)

/-- What a reader reads if nothing remains. -/
def whole (r : Reader α) : Reader α := fun t =>
  match r t with
  | .error e => .error e
  | .ok (a, []) => .ok (a, [])
  | .ok (_, c :: rest) => .error ⟨.unread, c :: rest⟩

end Reader

namespace Combinators

/-- Ways to put readers together that obey the laws. -/
def plain : Combinators where
  takeTill p t := .ok (t.takeWhile (!p ·), t.dropWhile (!p ·))
  symbol c t := if t.head? = some c then .ok (c, t.tail) else .error ⟨.symbol, t⟩
  separatedPair first sep second t := do
    let (a, t₁) ← first t
    let (_, t₂) ← sep t₁
    let (c, t₃) ← second t₂
    return ((a, c), t₃)
  separatedList := Reader.list
  allConsuming := Reader.whole

theorem plain_lawful : plain.Lawful where
  takeTill _ _ := rfl
  symbol_cons _ _ := if_pos rfl
  symbol_of_head?_ne _ _ h := if_neg h
  separatedPair _ _ _ _ := rfl
  separatedList_of_error sep elem t e h := by
    show Reader.list sep elem t = _
    rw [Reader.list, h]
  separatedList_of_ok sep elem t t₁ rest a as h hmore := by
    show Reader.list sep elem t = _
    rw [Reader.list, h]
    simp only [hmore.alternate_eq]
    rfl
  allConsuming_of_error r t e h := by
    show Reader.whole r t = _
    rw [Reader.whole, h]
  allConsuming_of_nil r t a h := by
    show Reader.whole r t = _
    rw [Reader.whole, h]
  allConsuming_of_cons r t rest a c h := by
    show Reader.whole r t = _
    rw [Reader.whole, h]

end Combinators

end StringRewriting
