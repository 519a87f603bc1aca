import Turret.P2P.LoanCalendar

/-! What the helpers of the calendar file do: `text` escapes, `fold` folds, and
`amount` prints a number that reads back. -/

namespace Turret.P2P.LoanCalendar

open CodeUnits ContentLines DecimalText

/-! ### Text values -/

section Text

variable {unit : UInt16} {replacement value rest : Text}

/-- The steps of `text` after the line breaks are replaced. -/
def delimited (value : Text) : Text :=
  replaceAll comma [backslash, comma] <|
    replaceAll semicolon [backslash, semicolon] <| value.filter fun c => !isControl c

theorem replaceAll_append (value rest : Text) :
    replaceAll unit replacement (value ++ rest) =
      replaceAll unit replacement value ++ replaceAll unit replacement rest :=
  List.flatMap_append

theorem delimited_append (value rest : Text) :
    delimited (value ++ rest) = delimited value ++ delimited rest := by
  rw [delimited, List.filter_append, replaceAll_append, replaceAll_append]
  rfl

theorem delimited_unit {c : UInt16} (h : c ≠ backslash) (plain : isBreak c = false) :
    delimited [c] = ([c].filter fun c => !isControl c).flatMap escape := by
  have other : c ≠ lf := by
    rintro rfl
    exact absurd plain (by decide)
  unfold delimited
  cases control : isControl c with
  | true => simp [control, replaceAll]
  | false =>
    simp only [List.filter_cons, control, Bool.not_false, if_pos, List.filter_nil,
      List.flatMap_singleton, escape, if_neg h, if_neg other, replaceAll]
    split
    · decide
    · exact List.flatMap_singleton ..

theorem head?_replaceAll {unit : UInt16} {value more : Text} :
    (replaceAll unit (unit :: more) value).head? = value.head? := by
  cases value with
  | nil => rfl
  | cons c value =>
    simp only [replaceAll, List.flatMap_cons, List.head?_cons]
    split
    · rename_i same
      simp [same]
    · rfl

/-- The escapes are those of the normalized text. -/
theorem text_eq (value : Text) : text value = (normalized value).flatMap escape := by
  change delimited (replaceBreaks (ascii "\\n") (replaceAll backslash [backslash, backslash] value)) =
    ((replaceBreaks [lf] value).filter fun c => !isControl c).flatMap escape
  induction value with
  | nil => rfl
  | cons c rest ih =>
    have split_cons : replaceAll backslash [backslash, backslash] (c :: rest) =
        (if c = backslash then [backslash, backslash] else [c]) ++
          replaceAll backslash [backslash, backslash] rest := rfl
    rw [split_cons, replaceBreaks_cons [lf], List.filter_append, List.flatMap_append, ← ih]
    by_cases slash : c = backslash
    · subst slash
      rw [if_pos rfl, List.cons_append, List.cons_append, List.nil_append, replaceBreaks_cons,
        replaceBreaks_cons]
      have single : ∀ tail : Text, ¬(backslash = cr ∧ tail.head? = some lf) := fun _ both =>
        absurd both.1 (by decide)
      have unbroken : isBreak backslash = false := by decide
      simp only [if_neg (single _), unbroken, Bool.false_eq_true, if_false, ← List.append_assoc]
      rw [delimited_append]
      rfl
    · rw [if_neg slash, List.singleton_append, replaceBreaks_cons, delimited_append,
        head?_replaceAll]
      congr 1
      split
      · rfl
      · cases plain : isBreak c with
        | true =>
          rw [if_pos rfl, if_pos rfl]
          decide
        | false => exact delimited_unit slash plain

theorem unescape_text (value : Text) : unescape (text value) = normalized value := by
  rw [text_eq, unescape_flatMap]

theorem unbroken_text (value : Text) : Unbroken (text value) := by
  rw [text_eq]
  exact unbroken_flatMap_escape (cr_notMem_normalized value)

end Text

/-! ### Folding -/

section Fold

variable {f : Folding} {done : List Text} {character : Text}

/-- A row of characters; all but the first begin with a space. -/
def rowOf (continued : Bool) (cs : List Text) : Text :=
  if continued then space :: cs.flatten else cs.flatten

/-- The rows of the characters of a line. -/
def rowsOf : List (List Text) → List Text
  | [] => []
  | first :: more => rowOf false first :: more.map (rowOf true)

theorem rowsOf_concat (groups : List (List Text)) (cs : List Text) :
    rowsOf (groups ++ [cs]) = rowsOf groups ++ [rowOf (!groups.isEmpty) cs] := by
  cases groups with
  | nil => rfl
  | cons first more => simp [rowsOf]

theorem rowsOf_parts {groups : List (List Text)} (h : groups ≠ []) :
    ∃ first : Text, ∃ more : List Text, rowsOf groups = first :: more.map (fun part => space :: part) ∧
      groups.flatten.flatten = first ++ more.flatten := by
  cases groups with
  | nil => exact absurd rfl h
  | cons first more =>
    refine ⟨first.flatten, more.map List.flatten, ?_, ?_⟩
    · simp [rowsOf, rowOf]
    · rw [List.flatten_cons, List.flatten_append, List.flatten_flatten]

theorem octets_rowOf {continued : Bool} {cs : List Text} (h : Characters (cs ++ [character])) :
    octets (rowOf continued (cs ++ [character])) =
      octets (rowOf continued cs) + octets character := by
  have sizes : octets (cs ++ [character]).flatten = octets cs.flatten + octets character := by
    rw [octets_flatten h, octets_flatten h.left]
    simp
  cases continued with
  | false => exact sizes
  | true =>
    have front : ∀ text, octets (space :: text) = octets [space] + octets text := fun _ =>
      octets_plain_cons (by decide)
    change octets (space :: (cs ++ [character]).flatten) = octets (space :: cs.flatten) + _
    rw [front cs.flatten, front (cs ++ [character]).flatten, sizes, Nat.add_assoc]

/-- The rows so far are of the characters so far, each within the limit. -/
structure Folding.Holds (f : Folding) (done : List Text) : Prop where
  rows : ∃ groups cs, groups.flatten ++ cs = done ∧ f.lines = rowsOf groups ∧
    f.current = rowOf (!groups.isEmpty) cs
  bytes : f.bytes = octets f.current
  lines : ∀ row ∈ f.lines, octets row ≤ 75
  current : octets f.current ≤ 75

theorem Folding.Holds.push (h : f.Holds done) (whole : Characters (done ++ [character])) :
    (f.push character).Holds (done ++ [character]) := by
  obtain ⟨groups, cs, rfl, lines, current⟩ := h.rows
  have small : octets character ≤ 4 := octets_le_four whole (by simp)
  have alone : Characters [character] := whole.right
  unfold Folding.push
  by_cases full : 75 < f.bytes + octets character
  · simp only [if_pos full]
    have begun : octets (space :: character) = 1 + octets character := by
      rw [octets_plain_cons (by decide)]
      rfl
    have next : rowOf (!(groups ++ [cs]).isEmpty) [character] = [space] ++ character := by
      simp [rowOf]
    refine ⟨⟨groups ++ [cs], [character], by simp, ?_, next.symm⟩, begun.symm, fun row mem => ?_,
      ?_⟩
    · rw [rowsOf_concat, ← lines, ← current]
    · rcases List.mem_append.mp mem with mem | mem
      · exact h.lines row mem
      · rw [List.mem_singleton.mp mem]
        exact h.current
    · change octets (space :: character) ≤ 75
      omega
  · simp only [if_neg full]
    have tail : Characters (cs ++ [character]) := by
      rw [List.append_assoc] at whole
      exact whole.right
    have next : f.current ++ character = rowOf (!groups.isEmpty) (cs ++ [character]) := by
      rw [current]
      cases groups.isEmpty <;> simp [rowOf]
    have size : octets (f.current ++ character) = octets f.current + octets character := by
      rw [next, octets_rowOf tail, ← current]
    refine ⟨⟨groups, cs ++ [character], by simp, lines, next⟩, ?_, h.lines, ?_⟩
    · rw [size, h.bytes]
    · have bytes := h.bytes
      rw [size]
      omega

theorem Folding.holds_foldl {more : List Text} (h : f.Holds done)
    (whole : Characters (done ++ more)) : (more.foldl Folding.push f).Holds (done ++ more) := by
  induction more generalizing f done with
  | nil =>
    rw [List.append_nil]
    exact h
  | cons character more ih =>
    rw [List.foldl_cons, ← List.singleton_append, ← List.append_assoc]
    rw [← List.singleton_append, ← List.append_assoc] at whole
    exact ih (h.push whole.left) whole

/-- `fold` folds: its rows are within the limit, and are the line. -/
theorem foldRows_folds (line : Text) : Folds line (foldRows line) := by
  have start : (⟨[], [], 0⟩ : Folding).Holds [] :=
    ⟨⟨[], [], rfl, rfl, rfl⟩, rfl, nofun, by decide⟩
  have whole : Characters ([] ++ characters line) := characters_characters line
  have ended := Folding.holds_foldl start whole
  rw [List.nil_append] at ended
  obtain ⟨groups, cs, all, lines, current⟩ := ended.rows
  have rows : foldRows line = rowsOf (groups ++ [cs]) := by
    rw [rowsOf_concat, ← lines, ← current]
    rfl
  have joined : (groups ++ [cs]).flatten = characters line := by simpa using all
  refine ⟨?_, fun row mem => ?_⟩
  · rw [rows, ← characters_flatten line, ← joined]
    exact rowsOf_parts (by simp)
  · rcases List.mem_append.mp mem with mem | mem
    · exact ended.lines row mem
    · rw [List.mem_singleton.mp mem]
      exact ended.current

end Fold

/-! ### Amounts -/

theorem toText_of_nonneg {value : ℤ} (h : 0 ≤ value) : toText value = digits value.toNat := by
  obtain ⟨n, rfl⟩ := Int.eq_ofNat_of_zero_le h
  rw [toText, if_neg (by omega)]
  rfl

/-- What is printed is the amount over the power of ten. -/
theorem readDecimal_amount {value : ℤ} (h : 0 ≤ value) (decimals : ℕ) :
    readDecimal (amount value decimals) = some (value / 10 ^ decimals : ℚ) := by
  have cast : (value : ℚ) = (value.toNat : ℚ) := by
    rw [← Int.cast_natCast, Int.toNat_of_nonneg h]
  set all := padStart (decimals + 1) (digits value.toNat) with all_eq
  have all_digits : ∀ c ∈ all, isDigit c = true :=
    padStart_isDigit _ (digits_isDigit value.toNat)
  have long : decimals + 1 ≤ all.length := le_length_padStart ..
  have total : digitsValue all = value.toNat := by
    rw [all_eq, digitsValue_padStart, digitsValue_digits]
  have unfolds : amount value decimals =
      if decimals = 0 then all
      else all.take (all.length - decimals) ++
        if (all.drop (all.length - decimals)).rdropWhile (fun c => c == zero) = [] then []
        else point :: (all.drop (all.length - decimals)).rdropWhile fun c => c == zero := by
    rw [amount, toText_of_nonneg h]
  rw [unfolds, cast, ← total]
  by_cases none : decimals = 0
  · rw [if_pos none, none, readDecimal_whole (List.ne_nil_of_length_pos (by omega)) all_digits]
    simp
  · rw [if_neg none]
    set whole := all.take (all.length - decimals) with whole_eq
    set rest := all.drop (all.length - decimals) with rest_eq
    have whole_digits : ∀ c ∈ whole, isDigit c = true := fun c mem =>
      all_digits c (List.mem_of_mem_take mem)
    have some_whole : whole ≠ [] := by
      apply List.ne_nil_of_length_pos
      rw [whole_eq, List.length_take]
      omega
    have rest_length : rest.length = decimals := by
      rw [rest_eq, List.length_drop]
      omega
    have parts : digitsValue all = digitsValue whole * 10 ^ decimals + digitsValue rest := by
      rw [← rest_length, ← digitsValue_append, whole_eq, rest_eq, List.take_append_drop]
    -- the digits that are stripped are zeros
    set fraction := rest.rdropWhile (fun c => c == zero) with fraction_eq
    set zeros := rest.rtakeWhile (fun c => c == zero) with zeros_eq
    have stripped : fraction ++ zeros = rest := List.rdropWhile_append_rtakeWhile ..
    have zeros_value : digitsValue zeros = 0 := digitsValue_zeros fun c mem => by
      simpa using List.mem_rtakeWhile_imp mem
    have rest_value : digitsValue rest = digitsValue fraction * 10 ^ zeros.length := by
      rw [← stripped, digitsValue_append, zeros_value, Nat.add_zero]
    have lengths : fraction.length + zeros.length = decimals := by
      rw [← List.length_append, stripped, rest_length]
    rw [parts, rest_value]
    by_cases empty : fraction = []
    · rw [if_pos empty, List.append_nil, readDecimal_whole some_whole whole_digits, empty]
      simp [digitsValue]
    · have fraction_digits : ∀ c ∈ fraction, isDigit c = true := fun c mem =>
        all_digits c (List.mem_of_mem_drop (by
          rw [← rest_eq, ← stripped]
          exact List.mem_append_left _ mem))
      rw [if_neg empty, readDecimal_point some_whole whole_digits empty fraction_digits]
      have power : (10 : ℚ) ^ decimals = 10 ^ fraction.length * 10 ^ zeros.length := by
        rw [← pow_add, lengths]
      push_cast
      rw [power]
      field_simp

/-! ### Printable text -/

/-- No control character, and no space. -/
def Printable (text : Text) : Prop := ∀ c ∈ text, 0x21 ≤ c ∧ c ≤ 0x7E

-- Decided along the text: the units are finitely many and would else be enumerated.
instance (text : Text) : Decidable (Printable text) := List.decidableBAll _ text

section Printable

variable {s t : Text}

theorem Printable.append (h : Printable s) (h' : Printable t) : Printable (s ++ t) := fun c mem =>
  (List.mem_append.mp mem).elim (h c) (h' c)

theorem Printable.unbroken (h : Printable s) : Unbroken s :=
  ⟨fun mem => absurd (h cr mem).1 (by decide), fun mem => absurd (h lf mem).1 (by decide)⟩

theorem printable_of_digits (h : ∀ c ∈ s, isDigit c = true) : Printable s := by
  intro c mem
  have digit := h c mem
  simp only [isDigit, zero, decide_eq_true_eq, UInt16.le_iff_toNat_le] at digit ⊢
  exact ⟨le_trans (by decide) digit.1, digit.2.trans (by decide)⟩

theorem printable_toText (value : ℤ) : Printable (toText value) := by
  have body : Printable (digits value.natAbs) := printable_of_digits (digits_isDigit _)
  unfold toText
  split
  · exact Printable.append (by decide) body
  · exact body

theorem printable_pad (width : ℕ) (n : ℤ) : Printable (pad width n) := by
  refine Printable.append (fun c mem => ?_) (printable_toText n)
  rw [List.eq_of_mem_replicate mem]
  decide

theorem printable_toISOString (seconds : ℤ) : Printable (toISOString seconds) := by
  unfold toISOString
  have dash : Printable (ascii "-") := by decide
  have mark : Printable (ascii ":") := by decide
  exact ((((((((((((printable_pad _ _).append dash).append (printable_pad _ _)).append dash).append
    (printable_pad _ _)).append (by decide)).append (printable_pad _ _)).append mark).append
    (printable_pad _ _)).append mark).append (printable_pad _ _)).append (by decide))

theorem mem_of_mem_removeFirst {pattern : Text} {c : UInt16} (h : c ∈ removeFirst pattern s) :
    c ∈ s := by
  induction s with
  | nil => exact h
  | cons d s ih =>
    rw [removeFirst] at h
    split at h
    · exact List.mem_of_mem_drop h
    · rcases List.mem_cons.mp h with rfl | later
      · exact List.mem_cons_self
      · exact List.mem_cons_of_mem _ (ih later)

theorem printable_utc (value : ℤ) : Printable (utc value) := by
  intro c mem
  rw [utc] at mem
  have kept := mem_of_mem_removeFirst mem
  exact printable_toISOString value c (List.mem_filter.mp kept).1

theorem lower_bounds {d : UInt16} (upper : 65 ≤ d ∧ d ≤ 90) : 0x21 ≤ d + 32 ∧ d + 32 ≤ 0x7E := by
  grind

theorem printable_toLowerCase (h : Printable s) : Printable (toLowerCase s) := by
  intro c mem
  obtain ⟨d, at_d, same⟩ := List.mem_map.mp mem
  rw [← same]
  by_cases upper : 65 ≤ d ∧ d ≤ 90
  · rw [if_pos upper]
    exact lower_bounds upper
  · rw [if_neg upper]
    exact h d at_d

theorem printable_of_isHexText {digit : UInt16 → Bool}
    (digits : ∀ c, digit c = true → 0x21 ≤ c ∧ c ≤ 0x7E) (h : isHexText digit s = true) :
    Printable s := by
  unfold isHexText at h
  split at h
  · rename_i z x rest
    simp only [Bool.and_eq_true, Bool.or_eq_true, beq_iff_eq] at h
    obtain ⟨⟨⟨rfl, mark⟩, -⟩, all⟩ := h
    intro c mem
    rcases List.mem_cons.mp mem with rfl | mem
    · decide
    · rcases List.mem_cons.mp mem with rfl | mem
      · rcases mark with rfl | rfl
        · decide
        · decide
      · exact digits c (List.all_eq_true.mp all c mem)
  · cases h

theorem printable_of_isHexDigit (c : UInt16) (h : isHexDigit c = true) : 0x21 ≤ c ∧ c ≤ 0x7E := by
  simp only [isHexDigit, isDigit, zero, Bool.or_eq_true, decide_eq_true_eq,
    UInt16.le_iff_toNat_le] at h ⊢
  simp at h ⊢
  omega

end Printable

end Turret.P2P.LoanCalendar
