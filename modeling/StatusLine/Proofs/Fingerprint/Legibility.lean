import StatusLine.Fingerprint.Decoding
import StatusLine.Proofs.Decimal.Layouts
import StatusLine.Proofs.Fingerprint.Rearrangement
import StatusLine.Proofs.Script.Fillings
import StatusLine.Proofs.Text.Substring

/-!
Encoded data can be read in one way only. Where a value ends is known from its text, so that a list
tells its items and an object its entries; and what a text was written for is known as far as words
tell.
-/

namespace StatusLine.Encoding

open Text

/-! Quoted texts. -/

def isMark (c : Char) : Bool :=
  ['"', ',', ':', '[', ']', '\x7b', '\x7d'].contains c

theorem digitsValue_control (n : Nat) (small : n < 32) :
    Decimal.digitsValue 16 (hexDigits 4 n) = n := by
  have all : ∀ n : Fin 32, Decimal.digitsValue 16 (hexDigits 4 n) = n := by decide
  exact all ⟨n, small⟩

theorem takeCodes_escaped (c : Char) (found : List Nat) (rest : List Char) :
    takeCodes found (escaped c ++ rest) = takeCodes (c.toNat :: found) rest := by
  unfold escaped
  split
  · rename_i marked
    rcases marked with rfl | rfl <;> simp [takeCodes, escapedCode]
  · rename_i plain
    obtain ⟨noQuote, noSlash⟩ := not_or.mp plain
    split
    · rename_i same
      simp [same, takeCodes, escapedCode]
    split
    · rename_i same
      simp [same, takeCodes, escapedCode]
    split
    · rename_i same
      simp [same, takeCodes, escapedCode]
    split
    · rename_i same
      simp [same, takeCodes, escapedCode]
    split
    · rename_i same
      simp [same, takeCodes, escapedCode]
    split
    · rename_i small
      have value := digitsValue_control c.toNat small
      simp only [hexDigits, List.nil_append, List.cons_append] at value ⊢
      rw [takeCodes, value]
    · simp [takeCodes, noSlash]

theorem takeCodes_flatMap_escaped (text : List Char) (found : List Nat) (rest : List Char) :
    takeCodes found (text.flatMap escaped ++ '"' :: rest) =
      some (found.reverse ++ text.map Char.toNat, rest) := by
  induction text generalizing found with
  | nil => simp [takeCodes]
  | cons c text ih =>
      rw [List.flatMap_cons, List.append_assoc, takeCodes_escaped, ih]
      simp

theorem quoted_append_inj {text other rest more : List Char}
    (same : quoted text ++ rest = quoted other ++ more) : text = other ∧ rest = more := by
  have inner : text.flatMap escaped ++ '"' :: rest = other.flatMap escaped ++ '"' :: more := by
    simpa [quoted] using same
  have read := congrArg (takeCodes []) inner
  rw [takeCodes_flatMap_escaped, takeCodes_flatMap_escaped] at read
  obtain ⟨codes, rests⟩ := Prod.mk.inj (Option.some.inj read)
  exact ⟨List.map_injective_iff.mpr (fun _ _ => Char.toNat_inj.mp) (by simpa using codes), rests⟩

/-! Texts of values. -/

inductive Legible : List Char → Prop
  | word {letters : List Char} (written : letters ≠ []) (plain : ∀ c ∈ letters, isMark c = false) :
      Legible letters
  | text (content : List Char) : Legible (quoted content)
  | list {pieces : List (List Char)} (each : ∀ piece ∈ pieces, Legible piece) :
      Legible (bracketed pieces)
  | object {pieces : List (List Char × List Char)} (each : ∀ piece ∈ pieces, Legible piece.2) :
      Legible (braced pieces)

def Follows (rest : List Char) : Prop :=
  ∀ c ∈ rest.head?, c = ',' ∨ c = ']' ∨ c = '\x7d'

def EndsKnown (isWritten : List Char → Prop) (piece : List Char) : Prop :=
  ∀ other, isWritten other → ∀ rest more, Follows rest → Follows more →
    piece ++ rest = other ++ more → piece = other ∧ rest = more

theorem isMark_of_follows {rest : List Char} (follows : Follows rest) :
    ∀ c ∈ rest.head?, isMark c = true := by
  intro c first
  rcases follows c first with rfl | rfl | rfl <;> decide

theorem word_append_inj {letters others rest more : List Char}
    (plain : ∀ c ∈ letters, isMark c = false) (plainToo : ∀ c ∈ others, isMark c = false)
    (follows : Follows rest) (followsToo : Follows more)
    (same : letters ++ rest = others ++ more) : letters = others ∧ rest = more := by
  have cut : ∀ {word behind : List Char}, (∀ c ∈ word, isMark c = false) → Follows behind →
      (word ++ behind).takeWhile (fun c => !isMark c) = word := by
    intro word behind free ends
    rw [List.takeWhile_append_of_pos fun c member => by simp [free c member]]
    cases behind with
    | nil => simp
    | cons c after => simp [isMark_of_follows ends c rfl]
  have words := congrArg (List.takeWhile fun c => !isMark c) same
  rw [cut plain follows, cut plainToo followsToo] at words
  subst words
  exact ⟨rfl, List.append_cancel_left same⟩

section Joined

variable {isWritten : List Char → Prop} {close : Char} (closes : close = ']' ∨ close = '\x7d')
  {pieces others : List (List Char)} {rest more : List Char}

include closes

theorem follows_pieces (pieces : List (List Char)) (rest : List Char) :
    Follows ((pieces.flatMap fun piece => [','] ++ piece) ++ close :: rest) := by
  cases pieces with
  | nil =>
      rintro _ ⟨⟩
      exact .inr closes
  | cons piece pieces =>
      rintro _ ⟨⟩
      exact .inl rfl

theorem flatMap_append_inj
    (each : ∀ piece ∈ pieces, EndsKnown isWritten piece)
    (eachOther : ∀ other ∈ others, isWritten other)
    (same : (pieces.flatMap fun piece => [','] ++ piece) ++ close :: rest =
      (others.flatMap fun piece => [','] ++ piece) ++ close :: more) :
    pieces = others ∧ rest = more := by
  have notComma : close ≠ ',' := by
    rcases closes with rfl | rfl <;> decide
  induction pieces generalizing others with
  | nil =>
      cases others with
      | nil => exact ⟨rfl, (List.cons.inj same).2⟩
      | cons other others => exact absurd (List.cons.inj same).1 notComma
  | cons piece pieces ih =>
      cases others with
      | nil => exact absurd (List.cons.inj same).1.symm notComma
      | cons other others =>
          obtain ⟨known, eachLater⟩ := List.forall_mem_cons.mp each
          obtain ⟨written, writtenLater⟩ := List.forall_mem_cons.mp eachOther
          simp only [List.flatMap_cons, List.append_assoc, List.singleton_append] at same
          obtain ⟨rfl, tails⟩ := known other written _ _ (follows_pieces closes _ _)
            (follows_pieces closes _ _) (by simpa using (List.cons.inj same).2)
          obtain ⟨rfl, rests⟩ := ih eachLater writtenLater tails
          exact ⟨rfl, rests⟩

theorem joinWith_append_inj
    (starts : ∀ piece, isWritten piece → ∃ c rest, piece = c :: rest ∧ c ≠ close)
    (each : ∀ piece ∈ pieces, isWritten piece ∧ EndsKnown isWritten piece)
    (eachOther : ∀ other ∈ others, isWritten other)
    (same : joinWith [','] pieces ++ close :: rest = joinWith [','] others ++ close :: more) :
    pieces = others ∧ rest = more := by
  cases pieces with
  | nil =>
      cases others with
      | nil => exact ⟨rfl, (List.cons.inj same).2⟩
      | cons other others =>
          obtain ⟨c, after, rfl, different⟩ := starts other (eachOther _ List.mem_cons_self)
          rw [joinWith_cons_flatMap] at same
          exact absurd (List.cons.inj same).1.symm different
  | cons piece pieces =>
      obtain ⟨⟨written, known⟩, eachLater⟩ := List.forall_mem_cons.mp each
      cases others with
      | nil =>
          obtain ⟨c, after, rfl, different⟩ := starts piece written
          rw [joinWith_cons_flatMap] at same
          exact absurd (List.cons.inj same).1 different
      | cons other others =>
          obtain ⟨writtenToo, writtenLater⟩ := List.forall_mem_cons.mp eachOther
          rw [joinWith_cons_flatMap, joinWith_cons_flatMap, List.append_assoc,
            List.append_assoc] at same
          obtain ⟨rfl, tails⟩ := known other writtenToo _ _ (follows_pieces closes _ _)
            (follows_pieces closes _ _) same
          obtain ⟨rfl, rests⟩ :=
            flatMap_append_inj closes (fun piece member => (eachLater piece member).2) writtenLater
              tails
          exact ⟨rfl, rests⟩

end Joined

/-! Entries of objects. -/

def entryText (entry : List Char × List Char) : List Char :=
  quoted entry.1 ++ ':' :: entry.2

def IsEntry (text : List Char) : Prop :=
  ∃ entry : List Char × List Char, text = entryText entry ∧ Legible entry.2

theorem braced_eq (pieces : List (List Char × List Char)) :
    braced pieces = '\x7b' :: joinWith [','] (pieces.map entryText) ++ ['\x7d'] :=
  rfl

theorem entryText_inj {first second : List Char × List Char}
    (same : entryText first = entryText second) : first = second := by
  obtain ⟨keys, values⟩ := quoted_append_inj same
  exact Prod.ext keys (List.cons.inj values).2

theorem endsKnown_entryText {entry : List Char × List Char} (known : EndsKnown Legible entry.2) :
    EndsKnown IsEntry (entryText entry) := by
  rintro _ ⟨other, rfl, legible⟩ rest more follows followsToo same
  rw [entryText, entryText, List.append_assoc, List.append_assoc] at same
  obtain ⟨keys, values⟩ := quoted_append_inj same
  obtain ⟨same, rests⟩ := known other.2 legible rest more follows followsToo (List.cons.inj values).2
  exact ⟨by rw [entryText, entryText, keys, same], rests⟩

theorem Legible.exists_first {text : List Char} (legible : Legible text) :
    ∃ c rest, text = c :: rest ∧ c ≠ ']' ∧ c ≠ '\x7d' ∧ c ≠ ',' := by
  cases legible with
  | word written plain =>
      cases text with
      | nil => exact absurd rfl written
      | cons c rest =>
          have free := plain c List.mem_cons_self
          refine ⟨c, rest, rfl, ?_, ?_, ?_⟩ <;> (rintro rfl; cases free)
  | text content => exact ⟨_, _, rfl, by decide, by decide, by decide⟩
  | list each => exact ⟨_, _, rfl, by decide, by decide, by decide⟩
  | object each => exact ⟨_, _, rfl, by decide, by decide, by decide⟩

theorem word_ne_marked {letters rest more : List Char} {c : Char} (written : letters ≠ [])
    (plain : ∀ c ∈ letters, isMark c = false) (mark : isMark c = true) :
    letters ++ rest ≠ c :: more := by
  cases letters with
  | nil => exact absurd rfl written
  | cons first letters =>
      intro same
      have free := plain first List.mem_cons_self
      rw [(List.cons.inj same).1, mark] at free
      cases free

theorem bracketed_append_inj {pieces others : List (List Char)} {rest more : List Char}
    (each : ∀ piece ∈ pieces, Legible piece ∧ EndsKnown Legible piece)
    (eachOther : ∀ other ∈ others, Legible other)
    (same : bracketed pieces ++ rest = bracketed others ++ more) :
    pieces = others ∧ rest = more := by
  rw [bracketed, bracketed, List.append_assoc, List.append_assoc] at same
  refine joinWith_append_inj (.inl rfl) ?_ each eachOther (List.cons.inj same).2
  intro piece legible
  obtain ⟨c, rest, shape, different, -⟩ := legible.exists_first
  exact ⟨c, rest, shape, different⟩

theorem braced_append_inj {pieces others : List (List Char × List Char)} {rest more : List Char}
    (each : ∀ piece ∈ pieces, Legible piece.2 ∧ EndsKnown Legible piece.2)
    (eachOther : ∀ other ∈ others, Legible other.2)
    (same : braced pieces ++ rest = braced others ++ more) : pieces = others ∧ rest = more := by
  rw [braced_eq, braced_eq, List.append_assoc, List.append_assoc] at same
  have starts : ∀ piece, IsEntry piece → ∃ c rest, piece = c :: rest ∧ c ≠ '\x7d' := by
    rintro _ ⟨entry, rfl, -⟩
    exact ⟨_, _, rfl, by decide⟩
  have known : ∀ piece ∈ pieces.map entryText, IsEntry piece ∧ EndsKnown IsEntry piece := by
    intro piece member
    obtain ⟨entry, inside, rfl⟩ := List.mem_map.mp member
    obtain ⟨legible, ends⟩ := each entry inside
    exact ⟨⟨entry, rfl, legible⟩, endsKnown_entryText ends⟩
  have knownToo : ∀ other ∈ others.map entryText, IsEntry other := by
    intro other member
    obtain ⟨entry, inside, rfl⟩ := List.mem_map.mp member
    exact ⟨entry, rfl, eachOther entry inside⟩
  obtain ⟨entries, rests⟩ :=
    joinWith_append_inj (.inr rfl) starts known knownToo (List.cons.inj same).2
  exact ⟨List.map_injective_iff.mpr (fun _ _ => entryText_inj) entries, rests⟩

theorem Legible.endsKnown {text : List Char} (legible : Legible text) :
    EndsKnown Legible text := by
  induction legible with
  | word written plain =>
      intro other legible rest more follows followsToo same
      cases legible with
      | word writtenToo plainToo => exact word_append_inj plain plainToo follows followsToo same
      | text content => exact absurd same (word_ne_marked written plain (by decide))
      | list each => exact absurd same (word_ne_marked written plain (by decide))
      | object each => exact absurd same (word_ne_marked written plain (by decide))
  | text content =>
      intro other legible rest more follows followsToo same
      cases legible with
      | word written plain => exact absurd same.symm (word_ne_marked written plain (by decide))
      | text content =>
          obtain ⟨rfl, rests⟩ := quoted_append_inj same
          exact ⟨rfl, rests⟩
      | list each => exact absurd (List.cons.inj same).1 (by decide)
      | object each => exact absurd (List.cons.inj same).1 (by decide)
  | list each ih =>
      intro other legible rest more follows followsToo same
      cases legible with
      | word written plain => exact absurd same.symm (word_ne_marked written plain (by decide))
      | text content => exact absurd (List.cons.inj same).1 (by decide)
      | list eachOther =>
          obtain ⟨rfl, rests⟩ :=
            bracketed_append_inj (fun piece member => ⟨each piece member, ih piece member⟩)
              eachOther same
          exact ⟨rfl, rests⟩
      | object eachOther => exact absurd (List.cons.inj same).1 (by decide)
  | object each ih =>
      intro other legible rest more follows followsToo same
      cases legible with
      | word written plain => exact absurd same.symm (word_ne_marked written plain (by decide))
      | text content => exact absurd (List.cons.inj same).1 (by decide)
      | list eachOther => exact absurd (List.cons.inj same).1 (by decide)
      | object eachOther =>
          obtain ⟨rfl, rests⟩ :=
            braced_append_inj (fun piece member => ⟨each piece member, ih piece member⟩)
              eachOther same
          exact ⟨rfl, rests⟩

theorem bracketed_inj {pieces others : List (List Char)} (each : ∀ piece ∈ pieces, Legible piece)
    (eachOther : ∀ other ∈ others, Legible other) (same : bracketed pieces = bracketed others) :
    pieces = others :=
  (bracketed_append_inj (fun piece member => ⟨each piece member, (each piece member).endsKnown⟩)
    eachOther (congrArg (· ++ []) same)).1

theorem braced_inj {pieces others : List (List Char × List Char)}
    (each : ∀ piece ∈ pieces, Legible piece.2) (eachOther : ∀ other ∈ others, Legible other.2)
    (same : braced pieces = braced others) : pieces = others :=
  (braced_append_inj (fun piece member => ⟨each piece member, (each piece member).endsKnown⟩)
    eachOther (congrArg (· ++ []) same)).1

/-! What encoding writes. -/

theorem not_isMark_of_number {c : Char} (number : Script.isNumberPart c = true) :
    isMark c = false := by
  have apart : ∀ mark ∈ ['"', ',', ':', '[', ']', '\x7b', '\x7d'],
      Script.isNumberPart mark = false := by decide
  by_contra marked
  have member := List.contains_iff_mem.mp (Bool.eq_true_of_not_eq_false marked)
  rw [apart c member] at number
  cases number

theorem legible_number {letters : List Char} (written : letters ≠ [])
    (number : letters.all Script.isNumberPart = true) : Legible letters :=
  .word written fun c member => not_isMark_of_number (List.all_eq_true.mp number c member)

theorem legible_ofInt (value : Int) : Legible (ofInt value) := by
  refine legible_number ?_ (Script.number_ofInt value)
  cases value with
  | ofNat n => exact Nat.toDigits_ne_nil
  | negSucc n => exact List.cons_ne_nil _ _

theorem legible_float (value : Float) : Legible (Decimal.text Decimal.encoded value) := by
  by_cases finite : Decimal.IsFinite value
  · obtain ⟨negative, mantissa, exponent, known⟩ := finite
    obtain ⟨c, rest, shape, -⟩ := Decimal.exists_digit_unsignedText Decimal.encoded known
    have number : (Decimal.unsignedText Decimal.encoded mantissa exponent).all
        Script.isNumberPart = true := by
      rw [Decimal.unsignedText]
      split
      · decide
      · exact Script.number_magnitude _ _
    rw [Decimal.text_of_parts _ known]
    cases negative
    · exact legible_number (by simp [shape]) number
    · exact legible_number (List.cons_ne_nil _ _) (by
        rw [if_pos rfl, List.all_cons, number, Bool.and_true]
        decide)
  · rw [Decimal.text_encoded_of_not finite]
    exact .word (by decide) (by decide)

mutual

theorem legible_encode : ∀ (value : Datum) (text : List Char), encode value = .ok text →
    Legible text
  | .null, _, done => by
      obtain rfl := Except.ok.inj done
      exact .word (by decide) (by decide)
  | .bool value, _, done => by
      obtain rfl := Except.ok.inj done
      cases value <;> exact .word (by decide) (by decide)
  | .int value, _, done => by
      obtain rfl := Except.ok.inj done
      exact legible_ofInt value
  | .float value, _, done => by
      obtain rfl := Except.ok.inj done
      exact legible_float value
  | .text value, _, done | .bytes value, _, done => by
      obtain rfl := Except.ok.inj done
      exact .text _
  | .list items, text, done | .tuple items, text, done | .set items, text, done
  | .frozenSet items, text, done => by
      rw [encode] at done
      obtain ⟨pieces, made, rfl⟩ := map_eq_ok done
      exact .list (legible_encodeItems items pieces made)
  | .mapping entries, text, done => by
      rw [encode] at done
      obtain ⟨pieces, made, rfl⟩ := map_eq_ok done
      exact .object fun piece member =>
        legible_encodeEntries entries pieces made piece ((orderByKey_perm pieces).subset member)
  | .record _ fields, text, done => by
      rw [encode] at done
      obtain ⟨pieces, made, rfl⟩ := map_eq_ok done
      exact .object fun piece member =>
        legible_encodeFields fields pieces made piece ((orderByKey_perm pieces).subset member)
  | .member value, text, done => by
      rw [encode] at done
      exact legible_encode value text done
  | .path _, _, done | .kind _, _, done | .thing _ _ _, _, done => by
      rw [encode] at done
      · cases done
      all_goals simp

theorem legible_encodeItems : ∀ (items : List Datum) (pieces : List (List Char)),
    encodeItems items = .ok pieces → ∀ piece ∈ pieces, Legible piece
  | [], _, done => by
      obtain rfl := Except.ok.inj done
      simp
  | item :: rest, pieces, done => by
      simp only [encodeItems] at done
      split at done
      · cases done
      · rename_i first here
        obtain ⟨others, made, rfl⟩ := map_eq_ok done
        exact List.forall_mem_cons.mpr
          ⟨legible_encode item first here, legible_encodeItems rest others made⟩

theorem legible_encodeEntries : ∀ (entries : List (Datum × Datum))
    (pieces : List (List Char × List Char)), encodeEntries entries = .ok pieces →
      ∀ piece ∈ pieces, Legible piece.2
  | [], _, done => by
      obtain rfl := Except.ok.inj done
      simp
  | (_, value) :: rest, pieces, done => by
      simp only [encodeEntries] at done
      split at done
      · cases done
      · rename_i first here
        obtain ⟨others, made, rfl⟩ := map_eq_ok done
        exact List.forall_mem_cons.mpr
          ⟨legible_encode value first here, legible_encodeEntries rest others made⟩

theorem legible_encodeFields : ∀ (fields : List (String × Datum))
    (pieces : List (List Char × List Char)), encodeFields fields = .ok pieces →
      ∀ piece ∈ pieces, Legible piece.2
  | [], _, done => by
      obtain rfl := Except.ok.inj done
      simp
  | (_, value) :: rest, pieces, done => by
      simp only [encodeFields] at done
      split at done
      · cases done
      · rename_i first here
        obtain ⟨others, made, rfl⟩ := map_eq_ok done
        exact List.forall_mem_cons.mpr
          ⟨legible_encode value first here, legible_encodeFields rest others made⟩

end

end StatusLine.Encoding
