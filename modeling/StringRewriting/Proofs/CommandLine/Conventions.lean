import Mathlib.Data.List.TakeWhile
import StringRewriting.Proofs.CommandLine.Statements

/-!
# Conventions of command lines

A reader of arguments keeps to a few conventions about options. Each of them says what a single
argument does to a reader that stands between two options, or to one that awaits the number of an
option. What is proved of command lines holds for every reader that keeps to them.

* `ArgumentReader`, `ArgumentReader.Lawful`: readers, and the conventions.
* `Reading.Holds`, `Reading.Awaits`: what the reader of the program has taken in, pending or not.
* `Reading.reader_lawful`: the reader of the program keeps to the conventions.
-/

namespace StringRewriting

/-! ## Names and letters -/

/-- The long name of an option with a number. -/
def Bound.name : Bound → Text
  | .depth => "depth".toList
  | .maxWords => "max-words".toList
  | .timeout => "timeout-ms".toList

theorem Bound.name_ne_nil (b : Bound) : b.name ≠ [] := by
  cases b <;> decide

/-- The letter of an option with a number, if it has one. -/
def Bound.letter? : Bound → Option Char
  | .depth => some 'd'
  | .maxWords | .timeout => none

/-- The long name of an option without value. -/
def Switch.name : Switch → Text
  | .trace => "trace".toList
  | .derivations => "derivations".toList
  | .verbose => "verbose".toList
  | .help => "help".toList
  | .version => "version".toList

theorem Switch.name_ne_nil (w : Switch) : w.name ≠ [] := by
  cases w <;> decide

/-- The letter of an option without value, if it has one. -/
def Switch.letter? : Switch → Option Char
  | .trace => some 't'
  | .derivations => none
  | .verbose => some 'v'
  | .help => some 'h'
  | .version => some 'V'

/-! ## Readers -/

/-- A reader that takes arguments one by one. -/
structure ArgumentReader where
  /-- How far a reader has come. -/
  State : Type
  /-- Before the first argument. -/
  start : State
  /-- What an argument does to a reader. -/
  take : State → Text → Except UsageStop State
  /-- What has been stated, when there are no more arguments. -/
  finish : State → Except UsageStop Stated

namespace ArgumentReader

/-- What a list of arguments states. -/
def read (k : ArgumentReader) (args : List Text) : Except UsageStop Stated :=
  args.foldlM k.take k.start >>= k.finish

/-- A reader goes on where a statement is accepted, and fails for the same cause where it is not. -/
def Follows {σ : Type} (holds : σ → Stated → Prop) (step : Except UsageStop σ) :
    Except UsageStop Stated → Prop
  | .ok s => ∃ r, step = .ok r ∧ holds r s
  | .error e => step = .error e

theorem Follows.exists_of_eq_ok {σ : Type} {holds : σ → Stated → Prop} {step : Except UsageStop σ}
    {x : Except UsageStop Stated} {s : Stated} (h : Follows holds step x) (hx : x = .ok s) :
    ∃ r, step = .ok r ∧ holds r s := by
  subst hx
  exact h

/-- The conventions about options. A reader stands *between* two options with what has been stated,
or it *awaits* the number of an option. -/
structure Lawful (k : ArgumentReader) (between : k.State → Stated → Prop)
    (awaits : k.State → Bound → Stated → Prop) : Prop where
  /-- Before the first argument nothing has been stated. -/
  start : between k.start .nothing
  /-- The arguments may end between two options. -/
  finish {r : k.State} {s : Stated} (h : between r s) : k.finish r = .ok s
  /-- They must not end where a number is awaited. -/
  finish_awaiting {r : k.State} {b : Bound} {s : Stated} (h : awaits r b s) :
    k.finish r = .error .missingValue
  /-- An option without value is stated by its name behind two dashes. -/
  switch_name {r : k.State} {s : Stated} (h : between r s) (w : Switch) :
    Follows between (k.take r ('-' :: '-' :: w.name)) (s.acceptSwitch w)
  /-- Its letter behind one dash means the same. -/
  switch_letter {r : k.State} {s : Stated} (h : between r s) {w : Switch} {c : Char}
    (hc : w.letter? = some c) : k.take r ['-', c] = k.take r ('-' :: '-' :: w.name)
  /-- It takes no value. -/
  switch_equals {r : k.State} {s : Stated} (h : between r s) (w : Switch) (value : Text) :
    k.take r ('-' :: '-' :: (w.name ++ '=' :: value)) = .error .needlessValue
  /-- More letters may stand behind it as if each had a dash of its own. -/
  letters {r : k.State} {s : Stated} (h : between r s) {w : Switch} {c d : Char}
    (hc : w.letter? = some c) (hd : d ≠ '-') (t : Text) :
    k.take r ('-' :: c :: d :: t) = k.take r ['-', c] >>= (k.take · ('-' :: d :: t))
  /-- The name of an option with a number awaits the number. -/
  bound_name {r : k.State} {s : Stated} (h : between r s) (b : Bound) :
    ∃ r', k.take r ('-' :: '-' :: b.name) = .ok r' ∧ awaits r' b s
  /-- So does its letter. -/
  bound_letter {r : k.State} {s : Stated} (h : between r s) {b : Bound} {c : Char}
    (hc : b.letter? = some c) : k.take r ['-', c] = k.take r ('-' :: '-' :: b.name)
  /-- The next argument is the number, unless it begins with a dash. -/
  bound_next {r : k.State} {b : Bound} {s : Stated} (h : awaits r b s) {value : Text}
    (hvalue : value.head? ≠ some '-') :
    ∃ r', k.take r value = .ok r' ∧ ∀ s', s.acceptNumber b value = .ok s' → between r' s'
  /-- The number may stand behind the name and an equals sign. -/
  bound_equals {r : k.State} {s : Stated} (h : between r s) (b : Bound) (value : Text) :
    Follows between (k.take r ('-' :: '-' :: (b.name ++ '=' :: value))) (s.acceptNumber b value)
  /-- It may stand behind the letter and an equals sign. -/
  letter_equals {r : k.State} {s : Stated} (h : between r s) {b : Bound} {c : Char}
    (hc : b.letter? = some c) (value : Text) :
    k.take r ('-' :: c :: '=' :: value) = k.take r ('-' :: '-' :: (b.name ++ '=' :: value))
  /-- It may be joined to the letter. -/
  letter_joined {r : k.State} {s : Stated} (h : between r s) {b : Bound} {c d : Char}
    (hc : b.letter? = some c) (hd : d ≠ '=') (t : Text) :
    k.take r ('-' :: c :: d :: t) = k.take r ('-' :: '-' :: (b.name ++ '=' :: d :: t))
  /-- An argument that begins with no dash, and a single dash, is a path. -/
  path {r : k.State} {s : Stated} (h : between r s) {p : Text}
    (hp : p.head? ≠ some '-' ∨ p = ['-']) (hne : p ≠ []) :
    Follows between (k.take r p) (s.accept (.path p))
  /-- Behind two dashes alone any argument is one. -/
  path_last {r : k.State} {s : Stated} (h : between r s) (p : Text) :
    ∃ r', k.take r ['-', '-'] = .ok r' ∧
      (k.take r' p >>= k.finish) = s.accept (.path p)
  /-- Any other name is refused. -/
  unknown_name {r : k.State} {s : Stated} (h : between r s) {name : Text} (hne : name ≠ [])
    (hequals : '=' ∉ name) (hbound : ∀ b : Bound, name ≠ b.name)
    (hswitch : ∀ w : Switch, name ≠ w.name) :
    k.take r ('-' :: '-' :: name) = .error .unknownArgument
  /-- So is any other letter. -/
  unknown_letter {r : k.State} {s : Stated} (h : between r s) {c : Char} (hc : c ≠ '-')
    (hbound : ∀ b : Bound, b.letter? ≠ some c) (hswitch : ∀ w : Switch, w.letter? ≠ some c)
    (t : Text) : k.take r ('-' :: c :: t) = .error .unknownArgument

end ArgumentReader

/-! ## The reader of the program -/

namespace Meaning

theorem ofLetter?_of_letter?_bound {b : Bound} {c : Char} (h : b.letter? = some c) :
    ofLetter? c = some (.bound b) := by
  cases b <;> simp_all [Bound.letter?]
  subst h
  rfl

theorem ofLetter?_of_letter?_switch {w : Switch} {c : Char} (h : w.letter? = some c) :
    ofLetter? c = some (.switch w) := by
  cases w <;> simp_all [Switch.letter?] <;> subst h <;> rfl

theorem ne_dash_of_ofLetter? {c : Char} {m : Meaning} (h : ofLetter? c = some m) : c ≠ '-' := by
  rintro rfl
  simp [ofLetter?] at h

/-- A letter that belongs to no option has no meaning. -/
theorem ofLetter?_eq_none {c : Char} (hbound : ∀ b : Bound, b.letter? ≠ some c)
    (hswitch : ∀ w : Switch, w.letter? ≠ some c) : ofLetter? c = none := by
  unfold ofLetter?
  split
  · exact absurd rfl (hbound .depth)
  · exact absurd rfl (hswitch .trace)
  · exact absurd rfl (hswitch .verbose)
  · exact absurd rfl (hswitch .help)
  · exact absurd rfl (hswitch .version)
  · rfl

/-- A name that belongs to no option has no meaning. -/
theorem ofName?_eq_none {name : Text} (hbound : ∀ b : Bound, name ≠ b.name)
    (hswitch : ∀ w : Switch, name ≠ w.name) : ofName? name = none := by
  calc ofName? name
      = if name = Bound.timeout.name then some (.bound .timeout)
        else if name = Switch.trace.name then some (.switch .trace)
        else if name = Switch.derivations.name then some (.switch .derivations)
        else if name = Switch.verbose.name then some (.switch .verbose)
        else if name = Switch.help.name then some (.switch .help)
        else if name = Switch.version.name then some (.switch .version)
        else none := (if_neg (hbound .depth)).trans (if_neg (hbound .maxWords))
    _ = none := by
      rw [if_neg (hbound .timeout), if_neg (hswitch .trace), if_neg (hswitch .derivations),
        if_neg (hswitch .verbose), if_neg (hswitch .help), if_neg (hswitch .version)]

end Meaning

namespace Stated

theorem path_of_acceptSwitch {s s' : Stated} {w : Switch} (h : s.acceptSwitch w = .ok s') :
    s'.path = s.path := by
  cases w <;> grind [acceptSwitch]

theorem path_of_acceptNumber {s s' : Stated} {b : Bound} {value : Text}
    (h : s.acceptNumber b value = .ok s') : s'.path = s.path := by
  rw [acceptNumber] at h
  split at h
  · cases h
  · split at h
    · cases h
    · rw [← Except.ok.inj h, path_setBound]

theorem ne_nil_of_accept_path {s s' : Stated} {p : Text} (h : s.accept (.path p) = .ok s') :
    p ≠ [] := by
  rintro rfl
  rw [accept, acceptPath, if_pos rfl] at h
  split at h <;> cases h

end Stated

namespace Reading

/-- The reader has taken in `s`, of which a part may be pending, and no two dashes alone. -/
structure Holds (r : Reading) (s : Stated) : Prop where
  /-- With what is pending, `s` has been stated. -/
  settled : r.settled = .ok s
  /-- It is known whether a path was met. -/
  hasPath : r.hasPath = s.path.isSome
  /-- Arguments are not yet taken for paths. -/
  onlyPaths : r.onlyPaths = false

/-- The reader has taken in `s` and an option whose number is still to come. -/
structure Awaits (r : Reading) (b : Bound) (s : Stated) : Prop where
  /-- Without the option, `s` has been stated. -/
  stated : r.stated = s
  /-- The option is pending. -/
  pending : r.pending = .opened b
  /-- It is known whether a path was met. -/
  hasPath : r.hasPath = s.path.isSome
  /-- Arguments are not yet taken for paths. -/
  onlyPaths : r.onlyPaths = false

section Take

variable {r : Reading}

theorem take_name (h : r.onlyPaths = false) {t : Text} (ht : t ≠ []) :
    r.take ('-' :: '-' :: t) = r.takeLong t := by
  cases t with
  | nil => exact absurd rfl ht
  | cons c t => simp [take, h]

theorem take_letters (h : r.onlyPaths = false) {c : Char} (hc : c ≠ '-') (t : Text) :
    r.take ('-' :: c :: t) = r.takeLetters (c :: t) := by
  unfold take
  rw [h, if_neg Bool.false_ne_true]
  split <;> simp_all

theorem take_word (h : r.onlyPaths = false) {p : Text} (hp : p.head? ≠ some '-' ∨ p = ['-']) :
    r.take p = r.takeWord p := by
  unfold take
  rw [h, if_neg Bool.false_ne_true]
  split <;> simp_all

theorem take_dashes (h : r.onlyPaths = false) :
    r.take ['-', '-'] = .ok { r with onlyPaths := true } := by
  rw [take, h, if_neg Bool.false_ne_true]

theorem take_of_onlyPaths (h : r.onlyPaths = true) (p : Text) : r.take p = r.takePath p := by
  unfold take
  rw [if_pos h]

theorem take_switch_name (h : r.onlyPaths = false) (w : Switch) :
    r.take ('-' :: '-' :: w.name) = r.settleThen (·.acceptSwitch w) .none := by
  rw [take_name h w.name_ne_nil]
  cases w <;> rfl

theorem take_switch_equals (h : r.onlyPaths = false) (w : Switch) (value : Text) :
    r.take ('-' :: '-' :: (w.name ++ '=' :: value)) = .error .needlessValue := by
  rw [take_name h (by simp)]
  cases w <;> rfl

theorem take_bound_name (h : r.onlyPaths = false) (b : Bound) :
    r.take ('-' :: '-' :: b.name) = r.settleThen .ok (.opened b) := by
  rw [take_name h b.name_ne_nil]
  cases b <;> rfl

theorem take_bound_equals (h : r.onlyPaths = false) (b : Bound) (value : Text) :
    r.take ('-' :: '-' :: (b.name ++ '=' :: value)) =
      r.settleThen (·.acceptNumber b value) .none := by
  rw [take_name h (by simp)]
  cases b <;> rfl

theorem take_switch_letters (h : r.onlyPaths = false) {w : Switch} {c : Char}
    (hc : w.letter? = some c) (t : Text) :
    r.take ('-' :: c :: t) = r.settleThen (·.acceptSwitch w) .none >>= (·.takeLetters t) := by
  have hletter := Meaning.ofLetter?_of_letter?_switch hc
  rw [take_letters h (Meaning.ne_dash_of_ofLetter? hletter), takeLetters, hletter]

theorem take_switch_letter (h : r.onlyPaths = false) {w : Switch} {c : Char}
    (hc : w.letter? = some c) :
    r.take ['-', c] = r.settleThen (·.acceptSwitch w) .none := by
  rw [take_switch_letters h hc]
  exact bind_pure _

theorem take_bound_letter (h : r.onlyPaths = false) {b : Bound} {c : Char}
    (hc : b.letter? = some c) : r.take ['-', c] = r.settleThen .ok (.opened b) := by
  have hletter := Meaning.ofLetter?_of_letter?_bound hc
  rw [take_letters h (Meaning.ne_dash_of_ofLetter? hletter), takeLetters, hletter]

theorem take_letter_equals (h : r.onlyPaths = false) {b : Bound} {c : Char}
    (hc : b.letter? = some c) (value : Text) :
    r.take ('-' :: c :: '=' :: value) = r.settleThen (·.acceptNumber b value) .none := by
  have hletter := Meaning.ofLetter?_of_letter?_bound hc
  rw [take_letters h (Meaning.ne_dash_of_ofLetter? hletter), takeLetters, hletter]
  rfl

theorem take_letter_joined (h : r.onlyPaths = false) {b : Bound} {c d : Char}
    (hc : b.letter? = some c) (hd : d ≠ '=') (t : Text) :
    r.take ('-' :: c :: d :: t) = r.settleThen (·.acceptNumber b (d :: t)) .none := by
  have hletter := Meaning.ofLetter?_of_letter?_bound hc
  rw [take_letters h (Meaning.ne_dash_of_ofLetter? hletter), takeLetters, hletter]
  split <;> simp_all

end Take

/-- A path is pending once it is met, and none may have been met before. -/
theorem takePath_eq {r : Reading} {s : Stated} (hsettled : r.settled = .ok s)
    (hpath : r.hasPath = s.path.isSome) (p : Text) :
    r.takePath p = if s.path.isSome then .error .unknownArgument
      else .ok { r with stated := s, pending := .path p, hasPath := true } := by
  rw [takePath, hpath, settleThen, hsettled]
  rfl

namespace Holds

variable {r : Reading} {s : Stated} (h : r.Holds s)
include h

theorem settleThen_eq {accept : Stated → Except UsageStop Stated} (pending : Pending) :
    r.settleThen accept pending = do return { r with stated := (← accept s), pending } := by
  rw [settleThen, h.settled]
  rfl

/-- What is accepted on top of what the reader holds is held afterwards. -/
theorem follows_settleThen {accept : Stated → Except UsageStop Stated}
    (hpath : ∀ s', accept s = .ok s' → s'.path = s.path) :
    ArgumentReader.Follows Holds (r.settleThen accept .none) (accept s) := by
  rw [h.settleThen_eq]
  cases ha : accept s with
  | error e => rfl
  | ok s' => exact ⟨_, rfl, rfl, by rw [hpath s' ha]; exact h.hasPath, h.onlyPaths⟩

theorem follows_take_switch_name (w : Switch) :
    ArgumentReader.Follows Holds (r.take ('-' :: '-' :: w.name)) (s.acceptSwitch w) := by
  rw [take_switch_name h.onlyPaths]
  exact h.follows_settleThen fun _ => Stated.path_of_acceptSwitch

theorem follows_take_bound_equals (b : Bound) (value : Text) :
    ArgumentReader.Follows Holds (r.take ('-' :: '-' :: (b.name ++ '=' :: value)))
      (s.acceptNumber b value) := by
  rw [take_bound_equals h.onlyPaths]
  exact h.follows_settleThen fun _ => Stated.path_of_acceptNumber

/-- Behind a letter that is accepted the reader looks for letters again. -/
theorem take_letters_cons {w : Switch} {c d : Char} (hc : w.letter? = some c) (hd : d ≠ '-')
    (t : Text) :
    r.take ('-' :: c :: d :: t) = r.take ['-', c] >>= fun r' => r'.take ('-' :: d :: t) := by
  rw [take_switch_letters h.onlyPaths hc, take_switch_letter h.onlyPaths hc, h.settleThen_eq]
  cases s.acceptSwitch w with
  | error e => rfl
  | ok s' =>
    have htake := take_letters (r := ⟨s', .none, r.hasPath, r.onlyPaths⟩) h.onlyPaths hd t
    exact htake.symm

theorem exists_take_bound_name (b : Bound) :
    ∃ r' : Reading, r.take ('-' :: '-' :: b.name) = .ok r' ∧ r'.Awaits b s := by
  rw [take_bound_name h.onlyPaths, h.settleThen_eq]
  exact ⟨_, rfl, rfl, rfl, h.hasPath, h.onlyPaths⟩

theorem takeWord_eq (p : Text) : r.takeWord p = r.takePath p := by
  -- no number is awaited, for then there would be nothing that `r` settles to
  unfold takeWord
  split
  · next b hb =>
    have hsettled := h.settled
    simp [Reading.settled, hb] at hsettled
  · rfl

theorem follows_take_path {p : Text} (hp : p.head? ≠ some '-' ∨ p = ['-']) (hne : p ≠ []) :
    ArgumentReader.Follows Holds (r.take p) (s.accept (.path p)) := by
  rw [take_word h.onlyPaths hp, h.takeWord_eq, Reading.takePath_eq h.settled h.hasPath,
    Stated.accept, Stated.acceptPath, if_neg hne]
  split
  · rfl
  · refine ⟨_, rfl, ?_, rfl, h.onlyPaths⟩
    show s.acceptPath p = _
    rw [Stated.acceptPath, if_neg hne]

theorem exists_take_dashes (p : Text) : ∃ r' : Reading, r.take ['-', '-'] = .ok r' ∧
    (r'.take p >>= Reading.settled) = s.accept (.path p) := by
  refine ⟨_, take_dashes h.onlyPaths, ?_⟩
  have hsettled : Reading.settled { r with onlyPaths := true } = .ok s := h.settled
  rw [take_of_onlyPaths rfl, Reading.takePath_eq hsettled h.hasPath, Stated.accept]
  split <;> rfl

theorem take_unknown_name {name : Text} (hne : name ≠ []) (hequals : '=' ∉ name)
    (hbound : ∀ b : Bound, name ≠ b.name) (hswitch : ∀ w : Switch, name ≠ w.name) :
    r.take ('-' :: '-' :: name) = .error .unknownArgument := by
  have hname : name.takeWhile (· ≠ '=') = name := by
    apply List.takeWhile_eq_self_iff.2
    intro c hc
    rw [decide_eq_true_eq]
    rintro rfl
    exact hequals hc
  rw [take_name h.onlyPaths hne, takeLong, hname, Meaning.ofName?_eq_none hbound hswitch]

theorem take_unknown_letter {c : Char} (hc : c ≠ '-') (hbound : ∀ b : Bound, b.letter? ≠ some c)
    (hswitch : ∀ w : Switch, w.letter? ≠ some c) (t : Text) :
    r.take ('-' :: c :: t) = .error .unknownArgument := by
  rw [take_letters h.onlyPaths hc, takeLetters, Meaning.ofLetter?_eq_none hbound hswitch]

end Holds

namespace Awaits

variable {r : Reading} {b : Bound} {s : Stated} (h : r.Awaits b s)
include h

theorem settled_eq : r.settled = .error .missingValue := by
  rw [settled, h.pending]

theorem exists_take {value : Text} (hvalue : value.head? ≠ some '-') :
    ∃ r' : Reading, r.take value = .ok r' ∧
      ∀ s', s.acceptNumber b value = .ok s' → r'.Holds s' := by
  rw [take_word h.onlyPaths (.inl hvalue), takeWord, h.pending]
  refine ⟨_, rfl, fun s' ha => ⟨?_, ?_, h.onlyPaths⟩⟩
  · show r.stated.acceptNumber b value = _
    rw [h.stated, ha]
  · rw [Stated.path_of_acceptNumber ha]
    exact h.hasPath

end Awaits

/-- The reader of the program. -/
def reader : ArgumentReader := ⟨Reading, start, take, settled⟩

/-- **The reader of the program keeps to the conventions.** -/
theorem reader_lawful : reader.Lawful Holds Awaits where
  start := ⟨rfl, rfl, rfl⟩
  finish h := h.settled
  finish_awaiting h := h.settled_eq
  switch_name h w := h.follows_take_switch_name w
  switch_letter h _ _ hc :=
    (take_switch_letter h.onlyPaths hc).trans (take_switch_name h.onlyPaths _).symm
  switch_equals h w value := take_switch_equals h.onlyPaths w value
  letters h _ _ _ hc hd t := h.take_letters_cons hc hd t
  bound_name h b := h.exists_take_bound_name b
  bound_letter h _ _ hc :=
    (take_bound_letter h.onlyPaths hc).trans (take_bound_name h.onlyPaths _).symm
  bound_next h _ hvalue := h.exists_take hvalue
  bound_equals h b value := h.follows_take_bound_equals b value
  letter_equals h _ _ hc value :=
    (take_letter_equals h.onlyPaths hc value).trans (take_bound_equals h.onlyPaths _ value).symm
  letter_joined h _ _ _ hc hd t :=
    (take_letter_joined h.onlyPaths hc hd t).trans (take_bound_equals h.onlyPaths _ _).symm
  path h _ hp hne := h.follows_take_path hp hne
  path_last h p := h.exists_take_dashes p
  unknown_name h _ hne hequals hbound hswitch := h.take_unknown_name hne hequals hbound hswitch
  unknown_letter h _ hc hbound hswitch t := h.take_unknown_letter hc hbound hswitch t

end Reading

end StringRewriting
