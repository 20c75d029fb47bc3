import Mathlib.Data.List.Forall2
import StringRewriting.Proofs.CommandLine.Conventions
import StringRewriting.Proofs.Grammar.RuleLine

/-!
# Ways to write a command line

A statement can be written in several ways: an option by its name or by its letter, its number as
the next argument, behind an equals sign or joined to the letter, letters together behind one dash,
and the path among the options or last behind two dashes. A reader that keeps to the conventions
reads all of them as what they state, and so the order and the way of writing do not matter.

* `Numeral`, `Phrase`, `Spelling`: the texts of a number, of some statements and of a command line.
* `Lawful.exists_foldlM_take`, `Lawful.read_eq`: phrases and command lines are read as what they
  state.
* `Settings.ofArguments_spelling`: the settings that a command line leads to.
-/

namespace StringRewriting

/-! ## Writing -/

/-- The texts of a number: its decimal digits behind any number of zeros, and a plus sign before
them or not. -/
inductive Numeral (n : Nat) : Text → Prop
  /-- The digits alone. -/
  | digits (zeros : Nat) : Numeral n (List.replicate zeros '0' ++ Nat.toDigits 10 n)
  /-- The digits behind a plus sign. -/
  | plus (zeros : Nat) : Numeral n ('+' :: (List.replicate zeros '0' ++ Nat.toDigits 10 n))

/-- Letters of options without value. -/
abbrev Letters : List Switch → Text → Prop :=
  List.Forall₂ fun w c => w.letter? = some c

/-- One or two arguments and what they state together. -/
inductive Phrase : List Statement → List Text → Prop
  /-- A path that begins with no dash or is a single dash. -/
  | path {p : Text} (h : p.head? ≠ some '-' ∨ p = ['-']) : Phrase [.path p] [p]
  /-- The name of an option without value. -/
  | name (w : Switch) : Phrase [.switch w] ['-' :: '-' :: w.name]
  /-- The name of an option, and its number as the next argument. -/
  | nameNumber {b : Bound} {n : Nat} {value : Text} (h : Numeral n value) :
      Phrase [.number b n] ['-' :: '-' :: b.name, value]
  /-- The name of an option, and its number behind an equals sign. -/
  | nameEquals {b : Bound} {n : Nat} {value : Text} (h : Numeral n value) :
      Phrase [.number b n] ['-' :: '-' :: (b.name ++ '=' :: value)]
  /-- Letters behind one dash. -/
  | letters {ws : List Switch} {cs : Text} (hcs : Letters ws cs) (hne : ws ≠ []) :
      Phrase (ws.map .switch) ['-' :: cs]
  /-- Letters, the last one with its number as the next argument. -/
  | lettersNumber {ws : List Switch} {cs : Text} {b : Bound} {c : Char} {n : Nat} {value : Text}
      (hcs : Letters ws cs) (hc : b.letter? = some c) (h : Numeral n value) :
      Phrase (ws.map .switch ++ [.number b n]) ['-' :: (cs ++ [c]), value]
  /-- Letters, the last one with its number behind an equals sign. -/
  | lettersEquals {ws : List Switch} {cs : Text} {b : Bound} {c : Char} {n : Nat} {value : Text}
      (hcs : Letters ws cs) (hc : b.letter? = some c) (h : Numeral n value) :
      Phrase (ws.map .switch ++ [.number b n]) ['-' :: (cs ++ c :: '=' :: value)]
  /-- Letters, the last one joined to its number. -/
  | lettersJoined {ws : List Switch} {cs : Text} {b : Bound} {c : Char} {n : Nat} {value : Text}
      (hcs : Letters ws cs) (hc : b.letter? = some c) (h : Numeral n value) :
      Phrase (ws.map .switch ++ [.number b n]) ['-' :: (cs ++ c :: value)]

/-- Arguments and what they state, phrase by phrase. -/
inductive Spelling : List Statement → List Text → Prop
  /-- Nothing is left to be stated. -/
  | nil : Spelling [] []
  /-- A path, whatever it begins with, comes last behind two dashes. -/
  | lastPath (p : Text) : Spelling [.path p] [['-', '-'], p]
  /-- A phrase in front of others. -/
  | cons {ss ss' : List Statement} {args args' : List Text} (h : Phrase ss args)
      (h' : Spelling ss' args') : Spelling (ss ++ ss') (args ++ args')

/-! ## Letters and numbers -/

theorem Letters.exists_append_eq_cons {ws : List Switch} {cs : Text} (hcs : Letters ws cs)
    {d : Char} (hd : d ≠ '-') (t : Text) : ∃ e u, cs ++ d :: t = e :: u ∧ e ≠ '-' := by
  cases hcs with
  | nil => exact ⟨d, t, rfl, hd⟩
  | cons hc hcs =>
    exact ⟨_, _, rfl, Meaning.ne_dash_of_ofLetter? (Meaning.ofLetter?_of_letter?_switch hc)⟩

namespace Numeral

variable {n : Nat} {value : Text}

theorem ofDigitChars_replicate_append (zeros : Nat) (ds : Text) :
    Nat.ofDigitChars 10 (List.replicate zeros '0' ++ ds) 0 = Nat.ofDigitChars 10 ds 0 := by
  induction zeros with
  | zero => rfl
  | succ zeros ih => rw [List.replicate_succ, List.cons_append, Nat.ofDigitChars_cons, ← ih]; rfl

theorem isDigit_of_mem {zeros : Nat} {c : Char}
    (h : c ∈ List.replicate zeros '0' ++ Nat.toDigits 10 n) : c.isDigit := by
  rcases List.mem_append.1 h with h | h
  · rw [List.eq_of_mem_replicate h]
    rfl
  · exact Nat.isDigit_of_mem_toDigits (by decide) (by decide) h

theorem ofDigits?_append (hn : n < Number.bound) (zeros : Nat) :
    Number.ofDigits? (List.replicate zeros '0' ++ Nat.toDigits 10 n) = some n := by
  have hvalue : Nat.ofDigitChars 10 (List.replicate zeros '0' ++ Nat.toDigits 10 n) 0 = n := by
    rw [ofDigitChars_replicate_append, Nat.ofDigitChars_toDigits (by decide) (by decide)]
  have hdigits : (List.replicate zeros '0' ++ Nat.toDigits 10 n).all Char.isDigit :=
    List.all_eq_true.2 fun c hc => isDigit_of_mem hc
  have hne : List.replicate zeros '0' ++ Nat.toDigits 10 n ≠ [] := by
    simp [Nat.toDigits_ne_nil]
  rw [Number.ofDigits?, hvalue, if_pos ⟨hne, hdigits, hn⟩]

/-- A numeral begins with a plus sign or a digit. -/
theorem exists_cons (h : Numeral n value) :
    ∃ c t, value = c :: t ∧ (c = '+' ∨ c.isDigit) := by
  cases h with
  | digits zeros =>
    obtain ⟨c, t, hct⟩ := List.exists_cons_of_ne_nil
      (List.append_ne_nil_of_right_ne_nil (List.replicate zeros '0') (Nat.toDigits_ne_nil (n := n)))
    exact ⟨c, t, hct, .inr (isDigit_of_mem (by rw [hct]; simp))⟩
  | plus zeros => exact ⟨'+', _, rfl, .inl rfl⟩

theorem head?_ne_dash (h : Numeral n value) : value.head? ≠ some '-' := by
  obtain ⟨c, t, rfl, hc⟩ := h.exists_cons
  rw [List.head?_cons, ne_eq, Option.some_inj]
  rintro rfl
  simp at hc

/-- A number is read from all its texts. -/
theorem ofText?_eq (h : Numeral n value) (hn : n < Number.bound) :
    Number.ofText? value = some n := by
  cases h with
  | plus zeros => exact ofDigits?_append hn zeros
  | digits zeros =>
    rw [← ofDigits?_append hn zeros, Number.ofText?]
    rintro ds hds
    have hmem : '+' ∈ List.replicate zeros '0' ++ Nat.toDigits 10 n := by simp [hds]
    have hplus : '+'.isDigit := isDigit_of_mem hmem
    simp at hplus

end Numeral

/-! ## Reading phrases -/

section Fold

variable {ε σ α : Type} {f : σ → α → Except ε σ} {s s₁ s₂ : σ}

theorem foldlM_singleton (f : σ → α → Except ε σ) (s : σ) (a : α) : [a].foldlM f s = f s a := by
  rw [List.foldlM_cons]
  exact bind_pure (f s a)

theorem foldlM_pair {a b : α} (ha : f s a = .ok s₁) (hb : f s₁ b = .ok s₂) :
    [a, b].foldlM f s = .ok s₂ := by
  rw [List.foldlM_cons, ha]
  exact (foldlM_singleton f s₁ b).trans hb

theorem foldlM_append_eq_ok_iff {as bs : List α} :
    (as ++ bs).foldlM f s = .ok s₂ ↔ ∃ s₁, as.foldlM f s = .ok s₁ ∧ bs.foldlM f s₁ = .ok s₂ := by
  rw [List.foldlM_append, bind_eq_ok_iff]

end Fold

/-- The text of a number is taken like the number. -/
theorem Stated.acceptNumber_eq_accept (s : Stated) (b : Bound) {n : Nat} {value : Text}
    (h : Numeral n value) (hn : n < Number.bound) :
    s.acceptNumber b value = s.accept (.number b n) := by
  rw [acceptNumber, accept, h.ofText?_eq hn]

namespace ArgumentReader.Lawful

variable {k : ArgumentReader} {between : k.State → Stated → Prop}
  {awaits : k.State → Bound → Stated → Prop} (hk : k.Lawful between awaits) {r : k.State}
  {s s' : Stated}
include hk

theorem exists_take_letter (h : between r s) {w : Switch} {c : Char} (hc : w.letter? = some c)
    (ha : s.acceptSwitch w = .ok s') : ∃ r', k.take r ['-', c] = .ok r' ∧ between r' s' := by
  rw [hk.switch_letter h hc]
  exact (hk.switch_name h w).exists_of_eq_ok ha

/-- Letters are taken one by one, up to what is left of the argument. -/
theorem exists_take_letters_append (h : between r s) {ws : List Switch} {cs : Text}
    (hcs : Letters ws cs) (ha : (ws.map Statement.switch).foldlM Stated.accept s = .ok s')
    {d : Char} (hd : d ≠ '-') (t : Text) :
    ∃ r', between r' s' ∧ k.take r ('-' :: (cs ++ d :: t)) = k.take r' ('-' :: d :: t) := by
  -- a letter may leave the reader with something else, so the induction is for all of them
  induction hcs generalizing r s with
  | nil => exact ⟨r, Except.ok.inj ha ▸ h, rfl⟩
  | cons hc hcs ih =>
    rw [List.map_cons, List.foldlM_cons, bind_eq_ok_iff] at ha
    obtain ⟨s₁, hs₁, ha⟩ := ha
    obtain ⟨r₁, htake, hr₁⟩ := hk.exists_take_letter h hc hs₁
    obtain ⟨r', hr', htake'⟩ := ih hr₁ ha
    obtain ⟨e, u, heu, he⟩ := Letters.exists_append_eq_cons hcs hd t
    refine ⟨r', hr', ?_⟩
    rw [← htake', List.cons_append, heu, hk.letters h hc he, htake]
    rfl

/-- Letters may also be all there is. -/
theorem exists_take_letters (h : between r s) {ws : List Switch} {cs : Text}
    (hcs : Letters ws cs) (hne : ws ≠ [])
    (ha : (ws.map Statement.switch).foldlM Stated.accept s = .ok s') :
    ∃ r', k.take r ('-' :: cs) = .ok r' ∧ between r' s' := by
  induction hcs generalizing r s with
  | nil => exact absurd rfl hne
  | cons hc hcs ih =>
    rw [List.map_cons, List.foldlM_cons, bind_eq_ok_iff] at ha
    obtain ⟨s₁, hs₁, ha⟩ := ha
    obtain ⟨r₁, htake, hr₁⟩ := hk.exists_take_letter h hc hs₁
    cases hcs with
    | nil => exact ⟨r₁, htake, Except.ok.inj ha ▸ hr₁⟩
    | cons hc' hcs =>
      have hdash := Meaning.ne_dash_of_ofLetter? (Meaning.ofLetter?_of_letter?_switch hc')
      obtain ⟨r', htake', hr'⟩ := ih hr₁ (List.cons_ne_nil _ _) ha
      refine ⟨r', ?_, hr'⟩
      rw [hk.letters h hc hdash, htake]
      exact htake'

/-- Behind letters without value, the letter of an option with a number comes with its rest. -/
theorem exists_take_letters_number (h : between r s) {ws : List Switch} {cs : Text} {b : Bound}
    {c : Char} {n : Nat} (hcs : Letters ws cs) (hc : b.letter? = some c)
    (ha : (ws.map Statement.switch ++ [Statement.number b n]).foldlM Stated.accept s = .ok s')
    (rest : Text) :
    ∃ r₁ s₁, between r₁ s₁ ∧ s₁.accept (.number b n) = .ok s' ∧
      k.take r ('-' :: (cs ++ c :: rest)) = k.take r₁ ('-' :: c :: rest) := by
  obtain ⟨s₁, hs₁, ha⟩ := foldlM_append_eq_ok_iff.1 ha
  rw [foldlM_singleton] at ha
  have hdash : c ≠ '-' := Meaning.ne_dash_of_ofLetter? (Meaning.ofLetter?_of_letter?_bound hc)
  obtain ⟨r₁, hr₁, htake⟩ := hk.exists_take_letters_append h hcs hs₁ hdash rest
  exact ⟨r₁, s₁, hr₁, ha, htake⟩

/-- An option is stated together with the next argument. -/
theorem exists_foldlM_number {r₁ : k.State} {a value : Text} {b : Bound} {n : Nat}
    (hopen : k.take r a = .ok r₁) (h : awaits r₁ b s) (hvalue : Numeral n value)
    (hn : n < Number.bound) (ha : s.accept (.number b n) = .ok s') :
    ∃ r', [a, value].foldlM k.take r = .ok r' ∧ between r' s' := by
  obtain ⟨r', htake, hr'⟩ := hk.bound_next h hvalue.head?_ne_dash
  exact ⟨r', foldlM_pair hopen htake, hr' s' ((s.acceptNumber_eq_accept b hvalue hn).trans ha)⟩

/-- With a number at hand, an option is stated at once. -/
theorem exists_take_number (h : between r s) {b : Bound} {n : Nat} {value : Text}
    (hvalue : Numeral n value) (hn : n < Number.bound) (ha : s.accept (.number b n) = .ok s') :
    ∃ r', k.take r ('-' :: '-' :: (b.name ++ '=' :: value)) = .ok r' ∧ between r' s' :=
  (hk.bound_equals h b value).exists_of_eq_ok ((s.acceptNumber_eq_accept b hvalue hn).trans ha)

/-- **A phrase is read as what it states**, whatever was read before. -/
theorem exists_foldlM_take {ss : List Statement} {args : List Text} (hphrase : Phrase ss args)
    (hbound : ∀ b n, .number b n ∈ ss → n < Number.bound) (h : between r s)
    (ha : ss.foldlM Stated.accept s = .ok s') :
    ∃ r', args.foldlM k.take r = .ok r' ∧ between r' s' := by
  cases hphrase with
  | @path p hp =>
    rw [foldlM_singleton] at ha ⊢
    exact (hk.path h hp (Stated.ne_nil_of_accept_path ha)).exists_of_eq_ok ha
  | name w =>
    rw [foldlM_singleton] at ha ⊢
    exact (hk.switch_name h w).exists_of_eq_ok ha
  | @nameNumber b n value hvalue =>
    rw [foldlM_singleton] at ha
    obtain ⟨r₁, hopen, hr₁⟩ := hk.bound_name h b
    exact hk.exists_foldlM_number hopen hr₁ hvalue (hbound b n (by simp)) ha
  | @nameEquals b n value hvalue =>
    rw [foldlM_singleton] at ha ⊢
    exact hk.exists_take_number h hvalue (hbound b n (by simp)) ha
  | @letters ws cs hcs hne =>
    rw [foldlM_singleton]
    exact hk.exists_take_letters h hcs hne ha
  | @lettersNumber ws cs b c n value hcs hc hvalue =>
    obtain ⟨r₁, s₁, hr₁, ha, htake⟩ := hk.exists_take_letters_number h hcs hc ha []
    obtain ⟨r₂, hopen, hr₂⟩ := hk.bound_name hr₁ b
    rw [hk.bound_letter hr₁ hc, hopen] at htake
    exact hk.exists_foldlM_number htake hr₂ hvalue (hbound b n (by simp)) ha
  | @lettersEquals ws cs b c n value hcs hc hvalue =>
    obtain ⟨r₁, s₁, hr₁, ha, htake⟩ := hk.exists_take_letters_number h hcs hc ha ('=' :: value)
    rw [foldlM_singleton, htake, hk.letter_equals hr₁ hc]
    exact hk.exists_take_number hr₁ hvalue (hbound b n (by simp)) ha
  | @lettersJoined ws cs b c n value hcs hc hvalue =>
    obtain ⟨r₁, s₁, hr₁, ha, htake⟩ := hk.exists_take_letters_number h hcs hc ha value
    obtain ⟨d, t, rfl, hd⟩ := hvalue.exists_cons
    have hequals : d ≠ '=' := by
      rintro rfl
      simp at hd
    rw [foldlM_singleton, htake, hk.letter_joined hr₁ hc hequals]
    exact hk.exists_take_number hr₁ hvalue (hbound b n (by simp)) ha

/-! ## Reading command lines -/

/-- **A command line is read as what it states**, in the order in which it does. -/
theorem foldlM_take_finish {ss : List Statement} {args : List Text} (hargs : Spelling ss args)
    (hbound : ∀ b n, .number b n ∈ ss → n < Number.bound) (h : between r s)
    (ha : ss.foldlM Stated.accept s = .ok s') :
    args.foldlM k.take r >>= k.finish = .ok s' := by
  induction hargs generalizing r s with
  | nil => exact (hk.finish h).trans ha
  | lastPath p =>
    rw [foldlM_singleton] at ha
    obtain ⟨r₁, hdashes, hpath⟩ := hk.path_last h p
    rw [List.foldlM_cons, hdashes, ← ha, ← hpath]
    exact congrArg (· >>= k.finish) (foldlM_singleton k.take r₁ p)
  | cons hphrase _ ih =>
    obtain ⟨s₁, hs₁, ha⟩ := foldlM_append_eq_ok_iff.1 ha
    obtain ⟨r₁, htake, hr₁⟩ :=
      hk.exists_foldlM_take hphrase (fun b n hn => hbound b n (List.mem_append_left _ hn)) h hs₁
    rw [List.foldlM_append, htake]
    exact ih (fun b n hn => hbound b n (List.mem_append_right _ hn)) hr₁ ha

/-- Statements in whatever order, written in whatever way, are read as what they lead to. -/
theorem read_eq {t : Stated} {ss : List Statement} {args : List Text} (hpath : t.path ≠ some [])
    (hverbosity : t.verbosity ≤ Stated.maxVerbosity)
    (hbound : ∀ b n, t.bound? b = some n → n < Number.bound) (hss : ss.Perm t.statements)
    (hargs : Spelling ss args) : k.read args = .ok t := by
  have hnumbers : ∀ b n, .number b n ∈ ss → n < Number.bound :=
    fun b n hn => hbound b n (Stated.number_mem_statements.1 (hss.mem_iff.1 hn))
  exact hk.foldlM_take_finish hargs hnumbers hk.start
    (Stated.foldlM_accept_of_perm hss hpath hverbosity)

end ArgumentReader.Lawful

namespace Settings

/-- Statements in whatever order, written in whatever way, state the settings that they lead to. -/
theorem stated_eq_settings {t : Stated} {ss : List Statement} {args : List Text}
    (hpath : t.path ≠ some []) (hverbosity : t.verbosity ≤ Stated.maxVerbosity)
    (hbound : ∀ b n, t.bound? b = some n → n < Number.bound) (hss : ss.Perm t.statements)
    (hargs : Spelling ss args) : stated args = t.settings := by
  have hread := Reading.reader_lawful.read_eq hpath hverbosity hbound hss hargs
  calc stated args = Reading.reader.read args >>= Stated.settings := (bind_assoc _ _ _).symm
    _ = t.settings := by rw [hread]; rfl

theorem ofArguments_of_stated {args : List Text} {s : Settings} (h : stated args = .ok s)
    (hs : s.fault? = none) : ofArguments args = .ok s := by
  simp only [ofArguments, h, hs]

theorem ofArguments_of_fault {args : List Text} {s : Settings} {fault : SettingsFault}
    (h : stated args = .ok s) (hs : s.fault? = some fault) :
    ofArguments args = .error (.settings fault) := by
  simp only [ofArguments, h, hs]

theorem getD_defaultDepth_eq_zero {depth : Option Nat} :
    depth.getD defaultDepth = 0 ↔ depth = some 0 := by
  cases depth <;> simp [defaultDepth]

/-- **A command line means the same in every order and every spelling.** Its settings are those
which it states, unless it states no depth or no word at all; then it is refused, and the depth is
looked at first. -/
theorem ofArguments_spelling {path : Text} {depth maxWords timeout : Option Nat}
    {trace derivations : Bool} {verbosity : Nat} {ss : List Statement} {args : List Text}
    (hpath : path ≠ []) (hdepth : ∀ n ∈ depth, n < Number.bound)
    (hmaxWords : ∀ n ∈ maxWords, n < Number.bound) (htimeout : ∀ n ∈ timeout, n < Number.bound)
    (hverbosity : verbosity ≤ 255)
    (hss : ss.Perm (Stated.statements
      ⟨some path, depth, maxWords, timeout, trace, derivations, verbosity⟩))
    (hargs : Spelling ss args) :
    (depth ≠ some 0 → maxWords ≠ some 0 →
      ∃ s, ofArguments args = .ok s ∧
        s = ⟨path, depth.getD 20, trace, derivations, maxWords, timeout, verbosity⟩ ∧
        s.limits = ⟨depth.getD 20, maxWords, timeout⟩) ∧
    (depth = some 0 →
      ∃ fault, ofArguments args = .error (.settings fault) ∧
        fault.message = "--depth must be at least 1") ∧
    (depth ≠ some 0 → maxWords = some 0 →
      ∃ fault, ofArguments args = .error (.settings fault) ∧
        fault.message = "--max-words must be at least 1") := by
  have hbound : ∀ b n, Stated.bound?
      ⟨some path, depth, maxWords, timeout, trace, derivations, verbosity⟩ b = some n →
        n < Number.bound := by
    rintro (_ | _ | _) n hn
    · exact hdepth n hn
    · exact hmaxWords n hn
    · exact htimeout n hn
  have hstated : stated args =
      .ok ⟨path, depth.getD defaultDepth, trace, derivations, maxWords, timeout, verbosity⟩ := by
    rw [stated_eq_settings (by simpa using hpath) hverbosity hbound hss hargs]
    simp [Stated.settings, Stated.nothing]
  refine ⟨fun hd hw => ?_, fun hd => ?_, fun hd hw => ?_⟩
  · refine ⟨_, ofArguments_of_stated hstated ?_, rfl, rfl⟩
    rw [fault?, if_neg (getD_defaultDepth_eq_zero.not.2 hd), if_neg hw]
  · refine ⟨.zeroDepth, ofArguments_of_fault hstated ?_, rfl⟩
    rw [fault?, if_pos (getD_defaultDepth_eq_zero.2 hd)]
  · refine ⟨.zeroWords, ofArguments_of_fault hstated ?_, rfl⟩
    rw [fault?, if_neg (getD_defaultDepth_eq_zero.not.2 hd), if_pos hw]

/-- Arguments with letters that stand together, a number joined to them. -/
def groupedArguments : List Text :=
  ["--timeout-ms", "250", "-vtd+007", "--max-words=3", "-v", "--", "-d"].map String.toList

/-- What `groupedArguments` state, one after the other. -/
def groupedStatements : List Statement :=
  [.number .timeout 250, .switch .verbose, .switch .trace, .number .depth 7, .number .maxWords 3,
    .switch .verbose, .path "-d".toList]

/-- The number among the letters is the depth, and behind two dashes even `-d` is a path. -/
theorem ofArguments_spelling_grouped :
    Spelling groupedStatements groupedArguments ∧
      ∃ s, ofArguments groupedArguments = .ok s ∧
        s = ⟨"-d".toList, 7, true, false, some 3, some 250, 2⟩ ∧
        s.limits = ⟨7, some 3, some 250⟩ := by
  have hspelling : Spelling groupedStatements groupedArguments :=
    .cons (.nameNumber (b := .timeout) (.digits 0)) <|
    .cons (.lettersJoined (b := .depth) (.cons rfl (.cons rfl .nil)) rfl (.plus 2)) <|
    .cons (.nameEquals (b := .maxWords) (.digits 0)) <|
    .cons (.letters (.cons rfl .nil) (List.cons_ne_nil _ _)) <|
    .lastPath "-d".toList
  have hperm : groupedStatements.Perm
      (Stated.statements ⟨some "-d".toList, some 7, some 3, some 250, true, false, 2⟩) := by decide
  obtain ⟨hallowed, -, -⟩ := ofArguments_spelling (by decide) (by simp [Number.bound])
    (by simp [Number.bound]) (by simp [Number.bound]) (by decide) hperm hspelling
  exact ⟨hspelling, hallowed (by decide) (by decide)⟩

end Settings

end StringRewriting
