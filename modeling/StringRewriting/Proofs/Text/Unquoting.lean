import StringRewriting.Proofs.Text.Quoted

/-!
# Quoted text can be read back

Every escape but the one in braces is as long as its first two symbols say, and that one ends at its
closing brace. So the symbol in front of an escaped text can be read off without knowing which
symbols were taken to be plain. A quote ends a text, since those inside are escaped, and behind a
text a comma or a bracket tells whether there is another one.

* `ofHexadecimal_hexadecimal`: code points are read back.
* `unescape?_escapeSymbol`, `escapeSymbol_append_inj`: so are symbols.
* `text_append_inj`, `list_inj`: a quoted text, and a list of them, tells what was quoted.
-/

namespace StringRewriting.Quoted

/-! ## Code points -/

/-- The value of a hexadecimal digit. -/
def digitValue (c : Char) : Nat :=
  (List.range 16).findIdx fun d => d.digitChar = c

/-- The number that hexadecimal digits write. -/
def ofHexadecimal (ds : Text) : Nat :=
  ds.foldl (fun n c => 16 * n + digitValue c) 0

theorem digitValue_digitChar : ∀ d < 16, digitValue d.digitChar = d := by decide

theorem ofHexadecimal_append_singleton (ds : Text) (c : Char) :
    ofHexadecimal (ds ++ [c]) = 16 * ofHexadecimal ds + digitValue c := by
  simp [ofHexadecimal]

/-- A number is read back from its digits. -/
theorem ofHexadecimal_hexadecimal (n : Nat) : ofHexadecimal (hexadecimal n) = n := by
  fun_induction hexadecimal n with
  | case1 n hn => simp [ofHexadecimal, digitValue_digitChar n hn]
  | case2 n hn ih =>
    rw [ofHexadecimal_append_singleton, ih, digitValue_digitChar _ (Nat.mod_lt n (by decide))]
    exact Nat.div_add_mod n 16

theorem brace_notMem_hexadecimal (n : Nat) : '\x7d' ∉ hexadecimal n :=
  notMem_hexadecimal (by decide) n

/-! ## Symbols -/

/-- The symbol that stands in front of an escaped text, and what remains. -/
def unescape? : Text → Option (Char × Text)
  | '\\' :: 'u' :: '\x7b' :: t =>
    some (Char.ofNat (ofHexadecimal (t.takeWhile (· ≠ '\x7d'))), (t.dropWhile (· ≠ '\x7d')).tail)
  | '\\' :: 'n' :: t => some ('\n', t)
  | '\\' :: 'r' :: t => some ('\r', t)
  | '\\' :: 't' :: t => some ('\t', t)
  | '\\' :: '0' :: t => some ('\x00', t)
  | '\\' :: c :: t => some (c, t)
  | c :: t => some (c, t)
  | [] => none

variable {plain plain' : Char → Bool}

theorem unescape?_codePoint (c : Char) (t : Text) :
    unescape? ('\\' :: 'u' :: '\x7b' :: (hexadecimal c.toNat ++ ['\x7d']) ++ t) = some (c, t) := by
  have hdigits : ∀ d ∈ hexadecimal c.toNat, decide (d ≠ '\x7d') = true := by
    intro d hd
    rw [decide_eq_true_eq]
    rintro rfl
    exact brace_notMem_hexadecimal _ hd
  have happend : '\\' :: 'u' :: '\x7b' :: (hexadecimal c.toNat ++ ['\x7d']) ++ t =
      '\\' :: 'u' :: '\x7b' :: (hexadecimal c.toNat ++ '\x7d' :: t) := by simp
  rw [happend, unescape?, List.takeWhile_append_of_pos hdigits,
    List.dropWhile_append_of_pos hdigits,
    List.takeWhile_cons_of_neg (by decide), List.dropWhile_cons_of_neg (by decide), List.append_nil,
    ofHexadecimal_hexadecimal, Char.ofNat_toNat, List.tail_cons]

/-- A symbol is read back, whether it was escaped or not. -/
theorem unescape?_escapeSymbol (c : Char) (t : Text) :
    unescape? (escapeSymbol plain c ++ t) = some (c, t) := by
  unfold escapeSymbol
  split_ifs with hquote hbackslash hfeed hreturn htab hnull hplain
  · rw [hquote]; rfl
  · rw [hbackslash]; rfl
  · rw [hfeed]; rfl
  · rw [hreturn]; rfl
  · rw [htab]; rfl
  · rw [hnull]; rfl
  · -- only an escape begins with a backslash
    rw [List.singleton_append]
    unfold unescape?
    split <;> simp_all
  · exact unescape?_codePoint c t

theorem escapeSymbol_append_inj {c d : Char} {t u : Text}
    (h : escapeSymbol plain c ++ t = escapeSymbol plain' d ++ u) : c = d ∧ t = u := by
  have hread : unescape? (escapeSymbol plain c ++ t) = some (d, u) := by
    rw [h, unescape?_escapeSymbol]
  rw [unescape?_escapeSymbol, Option.some_inj, Prod.mk.injEq] at hread
  exact hread

theorem escapeSymbol_append_ne_quote_cons (c : Char) (t u : Text) :
    escapeSymbol plain c ++ t ≠ '"' :: u := by
  unfold escapeSymbol
  split_ifs <;> simp_all

/-! ## Texts -/

/-- The first quote that is not escaped ends a text. -/
theorem escape_append_quote_inj {s s' t t' : Text}
    (h : escape plain s ++ '"' :: t = escape plain' s' ++ '"' :: t') : s = s' ∧ t = t' := by
  induction s generalizing s' with
  | nil =>
    cases s' with
    | nil =>
      rw [escape_nil, escape_nil, List.nil_append, List.nil_append, List.cons.injEq] at h
      exact ⟨rfl, h.2⟩
    | cons d s' =>
      rw [escape_cons, List.append_assoc] at h
      exact absurd h.symm (escapeSymbol_append_ne_quote_cons d _ _)
  | cons c s ih =>
    cases s' with
    | nil =>
      rw [escape_cons, List.append_assoc] at h
      exact absurd h (escapeSymbol_append_ne_quote_cons c _ _)
    | cons d s' =>
      rw [escape_cons, escape_cons, List.append_assoc, List.append_assoc] at h
      obtain ⟨rfl, hrest⟩ := escapeSymbol_append_inj h
      obtain ⟨rfl, ht⟩ := ih hrest
      exact ⟨rfl, ht⟩

/-- A quoted text tells what was quoted, and where it ends. -/
theorem text_append_inj {s s' t t' : Text} (h : text plain s ++ t = text plain' s' ++ t') :
    s = s' ∧ t = t' := by
  simp only [text, List.cons_append, List.append_assoc, List.cons.injEq, true_and,
    List.nil_append] at h
  exact escape_append_quote_inj h

/-! ## Lists of texts -/

theorem intercalate_cons_eq (sep t : Text) (ts : List Text) :
    List.intercalate sep (t :: ts) = t ++ ts.flatMap (sep ++ ·) := by
  induction ts generalizing t with
  | nil => simp
  | cons u us ih => simp only [List.intercalate_cons_cons, ih, List.flatMap_cons, List.append_assoc]

/-- The texts behind the first one, each behind a comma, up to the bracket. -/
theorem flatMap_append_bracket_inj {ts ts' : List Text}
    (h : (ts.map (text plain)).flatMap ([',', ' '] ++ ·) ++ [']'] =
      (ts'.map (text plain')).flatMap ([',', ' '] ++ ·) ++ [']']) : ts = ts' := by
  induction ts generalizing ts' with
  | nil =>
    cases ts' with
    | nil => rfl
    | cons t' ts' => simp at h
  | cons t ts ih =>
    cases ts' with
    | nil => simp at h
    | cons t' ts' =>
      simp only [List.map_cons, List.flatMap_cons, List.append_assoc,
        List.append_cancel_left_eq] at h
      obtain ⟨rfl, hrest⟩ := text_append_inj h
      rw [ih hrest]

/-- **A list of quoted texts tells what was quoted**, also to one who does not know which symbols
were taken to be plain. -/
theorem list_inj {ts ts' : List Text} (h : list plain ts = list plain' ts') : ts = ts' := by
  rw [list, list, List.cons.injEq] at h
  have hitems := h.2
  cases ts with
  | nil =>
    cases ts' with
    | nil => rfl
    | cons t' ts' =>
      rw [List.map_cons, intercalate_cons_eq] at hitems
      simp [text] at hitems
  | cons t ts =>
    cases ts' with
    | nil =>
      rw [List.map_cons, intercalate_cons_eq] at hitems
      simp [text] at hitems
    | cons t' ts' =>
      rw [List.map_cons, List.map_cons, intercalate_cons_eq, intercalate_cons_eq, List.append_assoc,
        List.append_assoc] at hitems
      obtain ⟨rfl, hrest⟩ := text_append_inj hitems
      rw [flatMap_append_bracket_inj hrest]

end StringRewriting.Quoted
