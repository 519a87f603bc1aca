import Turret.Library.CodeUnits

/-! Content lines as iCalendar has them. A line ends in CRLF; a long one is
folded, by a CRLF and a space that a reader removes again. The value of a text
property escapes backslashes, semicolons, commas and line breaks. -/

namespace Turret.ContentLines

open CodeUnits

/-- No line break is in the text. -/
def Unbroken (text : Text) : Prop := cr ∉ text ∧ lf ∉ text

instance (text : Text) : Decidable (Unbroken text) := inferInstanceAs (Decidable (_ ∧ _))

/-- The lines, each with its CRLF. -/
def terminated (lines : List Text) : Text := lines.flatMap fun line => line ++ crlf

/-- `text.split("\r\n")`. -/
def splitLines : Text → List Text
  | c :: d :: rest =>
    if c = cr ∧ d = lf then [] :: splitLines rest
    else (splitLines (d :: rest)).modifyHead fun line => c :: line
  | text => [text]

/-- Every CRLF that a space follows is removed with the space. -/
def unfolded : Text → Text
  | c :: d :: e :: rest =>
    if c = cr ∧ d = lf ∧ e = space then unfolded rest else c :: unfolded (d :: e :: rest)
  | text => text

/-- A fold before a space, and a line that a space does not continue. -/
example : unfolded (ascii "a\r\n  b\r\nc\r\n") = ascii "a b\r\nc\r\n" ∧
    splitLines (ascii "a b\r\nc\r\n") = [ascii "a b", ascii "c", []] := by decide

/-- A reader of the content finds the lines, in rows of at most 75 octets. -/
structure Encodes (content : Text) (lines : List Text) : Prop where
  rows : ∃ rows, content = terminated rows ∧ ∀ row ∈ rows, octets row ≤ 75 ∧ Unbroken row
  unfolded : splitLines (unfolded content) = lines ++ [[]]
  unbroken : ∀ line ∈ lines, Unbroken line

section Lines

variable {c : UInt16} {text rest line : Text} {lines rows : List Text}

theorem Unbroken.append (h : Unbroken text) (h' : Unbroken rest) : Unbroken (text ++ rest) :=
  ⟨by simp [h.1, h'.1], by simp [h.2, h'.2]⟩

@[simp]
theorem terminated_nil : terminated [] = [] := rfl

@[simp]
theorem terminated_cons (line : Text) (lines : List Text) :
    terminated (line :: lines) = line ++ (crlf ++ terminated lines) := by
  simp [terminated]

theorem intercalate_crlf (h : rows ≠ []) : crlf.intercalate rows ++ crlf = terminated rows := by
  induction rows with
  | nil => exact absurd rfl h
  | cons row rows ih =>
    cases rows with
    | nil => simp [crlf]
    | cons next rows =>
      rw [List.intercalate_cons_cons, terminated_cons, ← ih (by simp)]
      simp

theorem splitLines_ne (h : c ≠ cr) :
    splitLines (c :: text) = (splitLines text).modifyHead fun line => c :: line := by
  cases text with
  | nil => rfl
  | cons d text => rw [splitLines, if_neg fun both => h both.1]

theorem splitLines_terminated (h : ∀ line ∈ lines, cr ∉ line) :
    splitLines (terminated lines) = lines ++ [[]] := by
  induction lines with
  | nil => rfl
  | cons line lines ih =>
    obtain ⟨clean, others⟩ := List.forall_mem_cons.mp h
    rw [terminated_cons]
    induction line with
    | nil => simp [crlf, splitLines, ih others]
    | cons c line more =>
      rw [List.mem_cons, not_or] at clean
      rw [List.cons_append, splitLines_ne (Ne.symm clean.1),
        more (List.forall_mem_cons.mpr ⟨clean.2, others⟩) clean.2]
      rfl

theorem unfolded_cons_ne (h : c ≠ cr) : unfolded (c :: text) = c :: unfolded text := by
  rcases text with _ | ⟨d, _ | ⟨e, text⟩⟩
  · rfl
  · rfl
  · rw [unfolded, if_neg fun all => h all.1]

theorem unfolded_append (h : cr ∉ text) : unfolded (text ++ rest) = text ++ unfolded rest := by
  induction text with
  | nil => rfl
  | cons c text ih =>
    rw [List.mem_cons, not_or] at h
    rw [List.cons_append, unfolded_cons_ne (Ne.symm h.1), ih h.2, List.cons_append]

theorem unfolded_fold : unfolded (crlf ++ space :: rest) = unfolded rest := by
  simp [crlf, unfolded]

theorem unfolded_break (h : rest.head? ≠ some space) :
    unfolded (crlf ++ rest) = crlf ++ unfolded rest := by
  cases rest with
  | nil => rfl
  | cons e rest =>
    have other : e ≠ space := fun same => h (congrArg some same)
    have step : unfolded (cr :: lf :: e :: rest) = cr :: unfolded (lf :: e :: rest) := by
      rw [unfolded, if_neg fun all => other all.2.2]
    rw [crlf, List.cons_append, List.cons_append, List.nil_append, step,
      unfolded_cons_ne (by decide)]
    rfl

end Lines

/-! ### Folding -/

/-- The rows are the line, each but the first after a space. -/
structure Folds (line : Text) (rows : List Text) : Prop where
  parts : ∃ first : Text, ∃ more : List Text, rows = first :: more.map (fun part => space :: part) ∧
      line = first ++ more.flatten
  octets : ∀ row ∈ rows, octets row ≤ 75

section Folds

variable {line rest : Text} {rows lines : List Text} {fold : Text → List Text}

theorem Folds.unbroken (h : Folds line rows) (clean : Unbroken line) : ∀ row ∈ rows, Unbroken row := by
  obtain ⟨first, more, rfl, rfl⟩ := h.parts
  have parts : ∀ c, c ∉ first ++ more.flatten → c ∉ first ∧ ∀ part ∈ more, c ∉ part := by
    intro c out
    simp only [List.mem_append, List.mem_flatten, not_or, not_exists, not_and] at out
    exact ⟨out.1, fun part mem => out.2 part mem⟩
  obtain ⟨firstCr, moreCr⟩ := parts cr clean.1
  obtain ⟨firstLf, moreLf⟩ := parts lf clean.2
  intro row mem
  rcases List.mem_cons.mp mem with rfl | mem
  · exact ⟨firstCr, firstLf⟩
  · obtain ⟨part, at_part, rfl⟩ := List.mem_map.mp mem
    have spaceCr : cr ≠ space := by decide
    have spaceLf : lf ≠ space := by decide
    exact ⟨by simp [spaceCr, moreCr part at_part], by simp [spaceLf, moreLf part at_part]⟩

theorem unfolded_rows {first : Text} {more : List Text} (clean : cr ∉ first)
    (others : ∀ part ∈ more, cr ∉ part) (h : rest.head? ≠ some space) :
    unfolded (terminated (first :: more.map fun part => space :: part) ++ rest) =
      first ++ more.flatten ++ (crlf ++ unfolded rest) := by
  induction more generalizing first with
  | nil =>
    simp only [List.map_nil, terminated_cons, terminated_nil, List.append_nil, List.append_assoc,
      List.flatten_nil]
    rw [unfolded_append clean, unfolded_break h]
  | cons part more ih =>
    obtain ⟨here, later⟩ := List.forall_mem_cons.mp others
    have next := ih here later
    simp only [List.map_cons, terminated_cons, List.cons_append, List.append_assoc,
      List.flatten_cons] at next ⊢
    rw [unfolded_append clean, unfolded_fold, next]

theorem Folds.unfolded (h : Folds line rows) (clean : Unbroken line)
    (begins : rest.head? ≠ some space) :
    unfolded (terminated rows ++ rest) = line ++ (crlf ++ unfolded rest) := by
  obtain ⟨first, more, rfl, rfl⟩ := h.parts
  have out := clean.1
  simp only [List.mem_append, List.mem_flatten, not_or, not_exists, not_and] at out
  exact unfolded_rows out.1 (fun part mem => out.2 part mem) begins

/-- What begins with no space still does so when it is folded. -/
theorem Folds.begins (h : Folds line rows) (begins : line.head? ≠ some space) :
    (terminated rows ++ rest).head? ≠ some space := by
  obtain ⟨first, more, rfl, rfl⟩ := h.parts
  cases first with
  | nil => simp [crlf, cr, space]
  | cons c first => simpa using begins

theorem terminated_append (rows lines : List Text) :
    terminated (rows ++ lines) = terminated rows ++ terminated lines := by
  simp [terminated]

theorem unfolded_folds (folds : ∀ line ∈ lines, Folds line (fold line))
    (clean : ∀ line ∈ lines, Unbroken line) (begins : ∀ line ∈ lines, line.head? ≠ some space) :
    unfolded (terminated (lines.flatMap fold)) = terminated lines ∧
      (terminated (lines.flatMap fold)).head? ≠ some space := by
  induction lines with
  | nil => exact ⟨rfl, by simp⟩
  | cons line lines ih =>
    simp only [List.forall_mem_cons] at folds clean begins
    obtain ⟨later, start⟩ := ih folds.2 clean.2 begins.2
    rw [List.flatMap_cons, terminated_append]
    refine ⟨?_, folds.1.begins begins.1⟩
    rw [folds.1.unfolded clean.1 start, later, terminated_cons]

/-- Lines that are folded and joined can be read again. -/
theorem encodes_fold (some_line : lines ≠ []) (folds : ∀ line ∈ lines, Folds line (fold line))
    (clean : ∀ line ∈ lines, Unbroken line) (begins : ∀ line ∈ lines, line.head? ≠ some space) :
    Encodes (crlf.intercalate (lines.map fun line => crlf.intercalate (fold line)) ++ crlf) lines := by
  have joined : crlf.intercalate (lines.map fun line => crlf.intercalate (fold line)) ++ crlf =
      terminated (lines.flatMap fold) := by
    rw [intercalate_crlf (by simpa using some_line)]
    clear some_line clean begins
    induction lines with
    | nil => rfl
    | cons line lines ih =>
      simp only [List.forall_mem_cons] at folds
      obtain ⟨first, more, at_rows, -⟩ := folds.1.parts
      have joined_line : crlf.intercalate (fold line) ++ crlf = terminated (fold line) :=
        intercalate_crlf (by simp [at_rows])
      rw [List.map_cons, terminated_cons, ih folds.2, List.flatMap_cons, terminated_append,
        ← joined_line, List.append_assoc]
  rw [joined]
  obtain ⟨whole, -⟩ := unfolded_folds folds clean begins
  refine ⟨⟨_, rfl, fun row mem => ?_⟩, ?_, clean⟩
  · obtain ⟨line, at_line, at_row⟩ := List.mem_flatMap.mp mem
    exact ⟨(folds line at_line).octets row at_row,
      (folds line at_line).unbroken (clean line at_line) row at_row⟩
  · rw [whole, splitLines_terminated fun line mem => (clean line mem).1]

end Folds

/-! ### Text values -/

def backslash : UInt16 := 92
def semicolon : UInt16 := 59
def comma : UInt16 := 44
def colon : UInt16 := 58

def isBreak (c : UInt16) : Bool := decide (c = cr ∨ c = lf ∨ c = 0x2028 ∨ c = 0x2029)

def isControl (c : UInt16) : Bool :=
  decide (c ≤ 8 ∨ c = 0xB ∨ c = 0xC ∨ 0xE ≤ c ∧ c ≤ 0x1F ∨ c = 0x7F)

/-- `text.replace(/\r\n|[\r\n\u2028\u2029]/g, replacement)`. -/
def replaceBreaks (replacement : Text) : Text → Text
  | c :: d :: rest =>
    if c = cr ∧ d = lf then replacement ++ replaceBreaks replacement rest
    else (if isBreak c then replacement else [c]) ++ replaceBreaks replacement (d :: rest)
  | [c] => if isBreak c then replacement else [c]
  | [] => []

/-- Line breaks as LF, and no control characters. -/
def normalized (text : Text) : Text := (replaceBreaks [lf] text).filter fun c => !isControl c

def escape (c : UInt16) : Text :=
  if c = backslash then [backslash, backslash]
  else if c = lf then ascii "\\n"
  else if c = semicolon then [backslash, semicolon]
  else if c = comma then [backslash, comma]
  else [c]

/-- What a reader takes a text value for. -/
def unescape : Text → Text
  | c :: d :: rest =>
    if c = backslash then (if d = 110 ∨ d = 78 then lf else d) :: unescape rest
    else c :: unescape (d :: rest)
  | text => text

section Text

variable {c : UInt16} {text rest replacement : Text}

/-- The CR of a CRLF is passed by, as the LF is replaced. -/
theorem replaceBreaks_cons (replacement : Text) (c : UInt16) (rest : Text) :
    replaceBreaks replacement (c :: rest) =
      (if c = cr ∧ rest.head? = some lf then [] else if isBreak c then replacement else [c]) ++
        replaceBreaks replacement rest := by
  have lf_break : isBreak lf = true := by decide
  cases rest with
  | nil => simp [replaceBreaks]
  | cons d rest =>
    rw [replaceBreaks]
    simp only [List.head?_cons, Option.some.injEq]
    split
    · rename_i both
      obtain ⟨rfl, rfl⟩ := both
      cases rest with
      | nil => simp [replaceBreaks, lf_break]
      | cons e rest =>
        have single : ¬(lf = cr ∧ e = lf) := fun all => absurd all.1 (by decide)
        rw [List.nil_append, replaceBreaks.eq_1 replacement lf e rest, if_neg single, if_pos lf_break]
    · rfl

theorem cr_notMem_normalized (text : Text) : cr ∉ normalized text := by
  have out : cr ∉ replaceBreaks [lf] text := by
    induction text with
    | nil => simp [replaceBreaks]
    | cons c rest ih =>
      rw [replaceBreaks_cons, List.mem_append, not_or]
      refine ⟨?_, ih⟩
      split
      · simp
      · split
        · decide
        · rename_i plain
          rw [List.mem_singleton]
          rintro rfl
          exact plain (by decide)
  exact fun mem => out (List.mem_of_mem_filter mem)

theorem unescape_ne (h : c ≠ backslash) : unescape (c :: rest) = c :: unescape rest := by
  cases rest with
  | nil => rfl
  | cons d rest => rw [unescape, if_neg h]

theorem unescape_escape (c : UInt16) (rest : Text) :
    unescape (escape c ++ rest) = c :: unescape rest := by
  have escapes : ∀ d, d ≠ 110 → d ≠ 78 →
      unescape ([backslash, d] ++ rest) = d :: unescape rest := by
    intro d low high
    simp [unescape, low, high]
  unfold escape
  split
  · rename_i same
    rw [same, escapes backslash (by decide) (by decide)]
  · rename_i other
    split
    · rename_i same
      rw [same]
      rfl
    · split
      · rename_i same
        rw [same, escapes semicolon (by decide) (by decide)]
      · split
        · rename_i same
          rw [same, escapes comma (by decide) (by decide)]
        · exact unescape_ne other

/-- The reader undoes the escapes. -/
theorem unescape_flatMap (text : Text) : unescape (text.flatMap escape) = text := by
  induction text with
  | nil => rfl
  | cons c text ih => rw [List.flatMap_cons, unescape_escape, ih]

theorem unbroken_flatMap_escape (h : cr ∉ text) : Unbroken (text.flatMap escape) := by
  have unit : ∀ c, c ≠ cr → Unbroken (escape c) := by
    intro c other
    unfold escape
    split
    · decide
    · split
      · decide
      · rename_i notLf
        split
        · decide
        · split
          · decide
          · exact ⟨by simpa using other.symm, by simpa using Ne.symm notLf⟩
  have at_unit : ∀ c ∈ text, Unbroken (escape c) := fun c mem =>
    unit c fun same => h (same ▸ mem)
  constructor
  · rw [List.mem_flatMap]
    rintro ⟨c, mem, at_c⟩
    exact (at_unit c mem).1 at_c
  · rw [List.mem_flatMap]
    rintro ⟨c, mem, at_c⟩
    exact (at_unit c mem).2 at_c

end Text

/-! ### Properties -/

/-- The name of the property of a line, before its parameters and its value. -/
def propertyName (line : Text) : Text := line.takeWhile fun c => c != colon && c != semicolon

/-- The value of a property without parameters. -/
def propertyValue (line : Text) : Text := (line.dropWhile fun c => c != colon).drop 1

/-- The texts of the properties of the name, as a reader takes them. -/
def textsOf (name : Text) (lines : List Text) : List Text :=
  (lines.filter fun line => propertyName line == name).map fun line => unescape (propertyValue line)

def property (name value : Text) : Text := name ++ colon :: value

/-- The entries where the mask is true. -/
def select {α : Type} : List Bool → List α → List α
  | true :: mask, x :: xs => x :: select mask xs
  | false :: mask, _ :: xs => select mask xs
  | _, _ => []

section Properties

variable {name head value : Text} {properties : List (Text × Text)}

theorem propertyName_property (h : colon ∉ head) :
    propertyName (property head value) = propertyName head := by
  induction head with
  | nil => rfl
  | cons c head ih =>
    rw [List.mem_cons, not_or] at h
    have later := ih h.2
    simp only [propertyName, property, List.cons_append, List.takeWhile_cons] at later ⊢
    rw [later]

theorem propertyValue_property (h : colon ∉ head) : propertyValue (property head value) = value := by
  have passed : ∀ c ∈ head, (c != colon) = true := by
    intro c mem
    rw [bne_iff_ne]
    rintro rfl
    exact h mem
  unfold propertyValue property
  rw [List.dropWhile_append_of_pos passed]
  simp

theorem mem_of_mem_select {α : Type} {mask : List Bool} {xs : List α} {x : α}
    (h : x ∈ select mask xs) : x ∈ xs := by
  fun_induction select mask xs with
  | case1 mask y ys ih =>
    rcases List.mem_cons.mp h with rfl | later
    · exact List.mem_cons_self
    · exact List.mem_cons_of_mem _ (ih later)
  | case2 mask y ys ih => exact List.mem_cons_of_mem _ (ih h)
  | case3 => cases h

theorem filter_fst (keep : Text → Bool) (properties : List (Text × Text)) :
    properties.filter (fun p => keep p.1) =
      select ((properties.map Prod.fst).map keep) properties := by
  induction properties with
  | nil => rfl
  | cons p properties ih =>
    simp only [List.filter_cons, List.map_cons]
    cases keep p.1 with
    | true => exact congrArg (List.cons p) ih
    | false => exact ih

theorem filter_properties {keep : Text → Bool} (h : ∀ p ∈ properties, colon ∉ p.1) :
    (properties.map fun p => property p.1 p.2).filter (fun line => keep (propertyName line)) =
      (select (((properties.map Prod.fst).map propertyName).map keep) properties).map fun p =>
        property p.1 p.2 := by
  have named : ∀ p ∈ properties,
      keep (propertyName (property p.1 p.2)) = keep (propertyName p.1) := by
    intro p mem
    rw [propertyName_property (h p mem)]
  rw [List.filter_map, List.map_map, ← filter_fst]
  exact congrArg _ (List.filter_congr named)

theorem textsOf_properties (h : ∀ p ∈ properties, colon ∉ p.1) :
    textsOf name (properties.map fun p => property p.1 p.2) =
      (select (((properties.map Prod.fst).map propertyName).map fun n => n == name) properties).map
        fun p => unescape p.2 := by
  rw [textsOf, @filter_properties properties (fun n => n == name) h, List.map_map]
  refine List.map_congr_left fun p mem => ?_
  rw [Function.comp_apply, propertyValue_property (h p (mem_of_mem_select mem))]

end Properties

end Turret.ContentLines
