import StatusLine.Audit.Savings
import StatusLine.Proofs.Shortening.Chain
import StatusLine.Proofs.Store.FileText

/-!
Sizes in bytes. A text has a byte for each character and some more for those beyond ASCII, its
surplus. No rewrite adds to the surplus: what rules put in is ASCII but for the names they keep, and
a blank line that goes may take some of it along.
-/

namespace StatusLine.Audit

open Shortening

/-- The bytes that the characters of a text take beyond one each. -/
def surplus : List Char → Nat
  | [] => 0
  | c :: rest => c.utf8Size - 1 + surplus rest

theorem surplus_cons (c : Char) (rest : List Char) :
    surplus (c :: rest) = c.utf8Size - 1 + surplus rest :=
  rfl

theorem surplus_append (text more : List Char) :
    surplus (text ++ more) = surplus text + surplus more := by
  induction text with
  | nil => exact (Nat.zero_add _).symm
  | cons c rest ih => rw [List.cons_append, surplus_cons, surplus_cons, ih, Nat.add_assoc]

namespace Savings

theorem size_append (text more : List Char) : size (text ++ more) = size text + size more := by
  simp [size, Fingerprint.utf8_eq]

theorem size_cons (c : Char) (rest : List Char) : size (c :: rest) = c.utf8Size + size rest := by
  simp [size, Fingerprint.utf8_eq]

theorem size_eq_foldr (text : List Char) :
    size text = text.foldr (fun c size => c.utf8Size + size) 0 := by
  induction text with
  | nil => simp [size, Fingerprint.utf8_eq]
  | cons c rest ih => rw [size_cons, ih, List.foldr_cons]

theorem size_eq (text : List Char) : size text = text.length + surplus text := by
  induction text with
  | nil => simp [size, Fingerprint.utf8_eq, surplus]
  | cons c rest ih =>
      have positive := c.utf8Size_pos
      rw [size_cons, surplus_cons, List.length_cons, ih]
      omega

theorem ofTexts_eq (raw optimized : List Char) :
    ofTexts raw optimized =
      ⟨raw.length + surplus raw, optimized.length + surplus optimized⟩ := by
  rw [ofTexts, size_eq, size_eq]

end Savings

theorem surplus_eq_zero_iff (text : List Char) :
    surplus text = 0 ↔ ∀ c ∈ text, c.val ≤ 127 := by
  induction text with
  | nil => simp [surplus]
  | cons c rest ih =>
      have positive := c.utf8Size_pos
      have single : c.utf8Size - 1 = 0 ↔ c.val ≤ 127 := by
        rw [← Char.utf8Size_eq_one_iff]
        omega
      rw [surplus_cons, Nat.add_eq_zero_iff, single, ih, List.forall_mem_cons]

/-! Rewriting. -/

theorem surplus_shortNames (long short : String) (paired : (long, short) ∈ shortNames) :
    surplus long.toList = 0 ∧ surplus short.toList = 0 := by
  have all : ∀ names ∈ shortNames,
      surplus names.1.toList = 0 ∧ surplus names.2.toList = 0 := by
    simp only [shortNames, List.forall_mem_cons]
    repeat rw [String.toList_ofList]
    decide
  exact all (long, short) paired

theorem surplus_quotedVariable {name variableText : List Char}
    (quoted : QuotedVariable name variableText) : surplus variableText = surplus name := by
  have opening : surplus ['"', '$'] = 0 := by decide
  have braces : surplus ['"', '$', '\x7b'] = 0 ∧ surplus ['\x7d', '"'] = 0 := by decide
  have closing : surplus ['"'] = 0 := by decide
  cases quoted with
  | bare =>
      rw [surplus_append, surplus_append, opening, closing]
      omega
  | braced =>
      rw [surplus_append, surplus_append, braces.1, braces.2]
      omega

theorem surplus_le_of_rewrite {before rest stretch replacement : List Char}
    (rewrite : Rewrite before rest stretch replacement) :
    surplus replacement ≤ surplus stretch := by
  cases rewrite with
  | unbraced long short paired ends =>
      rw [surplus_cons, (surplus_shortNames long short paired).2]
      exact Nat.zero_le _
  | shortened long short paired starts ends =>
      rw [(surplus_shortNames long short paired).2]
      exact Nat.zero_le _
  | command lookup name known named apart =>
      have lead : surplus "command -v ".toList = 0 := by decide
      have tail : surplus " >/dev/null 2>&1".toList = 0 := by decide
      simp only [surplus_append, lead, tail]
      omega
  | homeDirectory name named =>
      have lead : surplus "$\x7b".toList = 0 := by decide
      have tail : surplus "/#$HOME/\\~\x7d".toList = 0 := by decide
      simp only [surplus_append, lead, tail]
      omega
  | clock => decide
  | contents name variableText named quoted =>
      have lead : surplus "$(<\"$".toList = 0 := by decide
      have tail : surplus "\")".toList = 0 := by decide
      simp only [surplus_append, lead, tail, surplus_quotedVariable quoted]
      omega
  | status apart => decide
  | test flag opening name variableText known named quoted apart =>
      have openings : ∀ test ∈ variableTests, surplus test.2 = 0 := by decide
      have tail : surplus " ]]".toList = 0 := by decide
      simp only [surplus_append, openings _ known, tail, surplus_quotedVariable quoted]
      omega
  | blankLine line blank single ends => exact Nat.zero_le _

theorem surplus_optimize_le (options : Options) (text : List Char) :
    surplus (optimize options text).text ≤ surplus text := by
  have chain := optimize_rewritten options text
  generalize (optimize options text).text = changed at chain
  induction chain with
  | refl => exact Nat.le_refl _
  | tail _ last ih =>
      obtain ⟨before, rest, stretch, replacement, rewrite, rfl, rfl⟩ := last
      have less := surplus_le_of_rewrite rewrite
      simp only [surplus_append] at ih ⊢
      omega

end StatusLine.Audit
