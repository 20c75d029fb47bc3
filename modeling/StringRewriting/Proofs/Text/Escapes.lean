import StringRewriting.Proofs.Text.Unquoting
import StringRewriting.Text.Visible

/-!
# How a symbol is escaped

Six symbols have an escape of their own. Any other symbol stands as it is if it is taken to be
plain, and has its code point in braces if it is not, in the one way to write it in lower case
hexadecimal digits without a zero in front.

* `Quoted.escapeSymbol_spells`: every symbol.
* `Quoted.escape_eq_self`, `Quoted.text_of_ascii`: texts that stand as they are.
-/

namespace StringRewriting.Quoted

/-! ## Code points -/

theorem mem_digits_of_mem_hexadecimal {n : Nat} {c : Char} (h : c ∈ hexadecimal n) :
    c ∈ "0123456789abcdef".toList := by
  have hdigits : ∀ d < 16, d.digitChar ∈ "0123456789abcdef".toList := by decide
  obtain ⟨d, hd, rfl⟩ := exists_digit_of_mem_hexadecimal h
  exact hdigits d hd

/-- Only zero is written with a zero in front. -/
theorem head?_hexadecimal_ne_zero {n : Nat} (h : n ≠ 0) : (hexadecimal n).head? ≠ some '0' := by
  fun_induction hexadecimal n with
  | case1 n hn =>
    have hdigit : ∀ d < 16, d ≠ 0 → d.digitChar ≠ '0' := by decide
    rw [List.head?_cons, ne_eq, Option.some_inj]
    exact hdigit n hn h
  | case2 n hn ih =>
    obtain ⟨d, ds, hds⟩ := List.exists_cons_of_ne_nil (hexadecimal_ne_nil (n / 16))
    rw [hds] at ih ⊢
    exact ih (by omega)

/-! ## Symbols -/

/-- The symbols that have an escape of their own, with what stands behind its backslash. -/
def named : List (Char × Char) :=
  [('"', '"'), ('\\', '\\'), ('\n', 'n'), ('\r', 'r'), ('\t', 't'), ('\x00', '0')]

/-- Apart from the quote and the backslash, they are control characters. -/
theorem eq_or_lt_of_mem_named :
    ∀ p ∈ named, p.1 = '"' ∨ p.1 = '\\' ∨ p.1.toNat < 0x20 := by decide

variable {plain : Char → Bool} {c : Char}

theorem escapeSymbol_of_mem_named {d : Char} (h : (c, d) ∈ named) :
    escapeSymbol plain c = ['\\', d] := by
  simp only [named, List.mem_cons, List.not_mem_nil, or_false, Prod.mk.injEq] at h
  rcases h with ⟨rfl, rfl⟩ | ⟨rfl, rfl⟩ | ⟨rfl, rfl⟩ | ⟨rfl, rfl⟩ | ⟨rfl, rfl⟩ | ⟨rfl, rfl⟩ <;> rfl

theorem escapeSymbol_of_notMem_named (h : ∀ d, (c, d) ∉ named) :
    escapeSymbol plain c = if plain c then [c] else
      '\\' :: 'u' :: '\x7b' :: (hexadecimal c.toNat ++ ['\x7d']) := by
  have hne : ∀ a b, (a, b) ∈ named → c ≠ a := fun a b hab hc => h b (hc ▸ hab)
  rw [escapeSymbol, if_neg (hne '"' '"' (by decide)), if_neg (hne '\\' '\\' (by decide)),
    if_neg (hne '\n' 'n' (by decide)), if_neg (hne '\r' 'r' (by decide)),
    if_neg (hne '\t' 't' (by decide)), if_neg (hne '\x00' '0' (by decide))]

/-- **How a symbol is escaped.** A symbol with an escape of its own has a backslash and what stands
behind it. Another one stands as it is if it is plain. If it is not, its code point stands in
braces, in lower case hexadecimal digits without a zero in front. -/
theorem escapeSymbol_spells (plain : Char → Bool) (c : Char) :
    (∀ d, (c, d) ∈ named → escapeSymbol plain c = ['\\', d]) ∧
    ((∀ d, (c, d) ∉ named) → plain c = true → escapeSymbol plain c = [c]) ∧
    ((∀ d, (c, d) ∉ named) → plain c = false → ∃ ds,
      escapeSymbol plain c = ['\\', 'u', '\x7b'] ++ ds ++ ['\x7d'] ∧
        ofHexadecimal ds = c.toNat ∧ (∀ d ∈ ds, d ∈ "0123456789abcdef".toList) ∧
        ds ≠ [] ∧ ds.head? ≠ some '0') := by
  refine ⟨fun d hd => escapeSymbol_of_mem_named hd, fun hc hplain => ?_, fun hc hplain => ?_⟩
  · rw [escapeSymbol_of_notMem_named hc, if_pos hplain]
  · -- the null symbol has an escape of its own
    have hpos : c.toNat ≠ 0 := by
      intro hzero
      obtain rfl : c = '\x00' := Char.toNat_inj.1 hzero
      exact hc '0' (by decide)
    refine ⟨hexadecimal c.toNat, ?_, ofHexadecimal_hexadecimal _,
      fun d hd => mem_digits_of_mem_hexadecimal hd, hexadecimal_ne_nil _,
      head?_hexadecimal_ne_zero hpos⟩
    rw [escapeSymbol_of_notMem_named hc, hplain]
    rfl

/-! ## Texts -/

/-- A text of plain symbols that have no escape of their own stands as it is. -/
theorem escape_eq_self {t : Text} (h : ∀ c ∈ t, plain c = true ∧ ∀ d, (c, d) ∉ named) :
    escape plain t = t := by
  induction t with
  | nil => rfl
  | cons c t ih =>
    rw [List.forall_mem_cons] at h
    obtain ⟨⟨hplain, hc⟩, ht⟩ := h
    rw [escape_cons, escapeSymbol_of_notMem_named hc, if_pos hplain, ih ht, List.singleton_append]

/-- A text of ASCII symbols that can be seen stands as it is, unless there is a quote or a backslash
in it. -/
theorem text_of_ascii {t : Text}
    (h : ∀ c ∈ t, 0x20 ≤ c.toNat ∧ c.toNat ≤ 0x7e ∧ c ≠ '"' ∧ c ≠ '\\') :
    text isVisible t = '"' :: (t ++ ['"']) := by
  have hself : escape isVisible t = t := by
    apply escape_eq_self
    intro c hc
    obtain ⟨hlo, hhi, hquote, hbackslash⟩ := h c hc
    refine ⟨isVisible_of_ascii hlo hhi, fun d hd => ?_⟩
    rcases eq_or_lt_of_mem_named _ hd with hc | hc | hc
    · exact hquote hc
    · exact hbackslash hc
    · exact absurd hlo (Nat.not_le.2 hc)
  rw [text, hself]

theorem ofList_text (plain : Char → Bool) (t : Text) :
    String.ofList (text plain t) = "\"" ++ String.ofList (escape plain t) ++ "\"" := by
  apply String.toList_injective
  simp [text]

end StringRewriting.Quoted
