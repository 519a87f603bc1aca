import Mathlib.Data.List.DropRight
import Mathlib.Tactic

/-! Strings of UTF-16 code units, as a JavaScript program handles them. A
character of a string is one code unit or a surrogate pair, and its octets are
those of its UTF-8 encoding, in which a lone surrogate stands as U+FFFD. -/

namespace Turret.CodeUnits

abbrev Text := List UInt16

/-- The code units of an ASCII text. -/
def ascii (s : String) : Text := s.toList.map fun c => UInt16.ofNat c.toNat

def cr : UInt16 := 13
def lf : UInt16 := 10
def space : UInt16 := 32
def crlf : Text := [cr, lf]

/-! ### Characters and octets -/

def isHigh (c : UInt16) : Bool := decide (0xD800 ≤ c ∧ c ≤ 0xDBFF)

def isLow (c : UInt16) : Bool := decide (0xDC00 ≤ c ∧ c ≤ 0xDFFF)

/-- `for (const character of text)`. -/
def characters : Text → List Text
  | [] => []
  | [c] => [[c]]
  | c :: d :: rest =>
    if isHigh c && isLow d then [c, d] :: characters rest else [c] :: characters (d :: rest)

/-- What a character encodes. -/
def scalar : Text → Char
  | [c] => if isHigh c || isLow c then '\uFFFD' else Char.ofNat c.toNat
  | [c, d] => Char.ofNat (0x10000 + (c.toNat - 0xD800) * 0x400 + (d.toNat - 0xDC00))
  | _ => '\uFFFD'

/-- `new TextEncoder().encode(text)`. -/
def encode (text : Text) : List UInt8 :=
  (characters text).flatMap fun character => String.utf8EncodeChar (scalar character)

def octets (text : Text) : ℕ := (encode text).length

/-- A lone surrogate, and a character of two code units. -/
example : characters [0xD83D, 65, 0xD83D, 0xDCC6] = [[0xD83D], [65], [0xD83D, 0xDCC6]] ∧
    encode [0xD83D, 65, 0xD83D, 0xDCC6] = [0xEF, 0xBF, 0xBD, 65, 0xF0, 0x9F, 0x93, 0x86] := by
  decide +kernel

/-- These are the characters of the text that they make. -/
def Characters (cs : List Text) : Prop := characters cs.flatten = cs

section Characters

variable {c d : UInt16} {rest text : Text} {cs ds : List Text} {character : Text}

theorem characters_pair (h : (isHigh c && isLow d) = true) :
    characters (c :: d :: rest) = [c, d] :: characters rest := by
  rw [characters, if_pos h]

theorem characters_unit (h : ¬(isHigh c && isLow d) = true) :
    characters (c :: d :: rest) = [c] :: characters (d :: rest) := by
  rw [characters, if_neg h]

theorem characters_plain (h : isHigh c = false) :
    characters (c :: rest) = [c] :: characters rest := by
  cases rest with
  | nil => rfl
  | cons d rest => exact characters_unit (by simp [h])

/-- The first character begins with the first code unit. -/
theorem characters_cons (c : UInt16) (rest : Text) :
    ∃ tail more, characters (c :: rest) = (c :: tail) :: more := by
  cases rest with
  | nil => exact ⟨[], [], rfl⟩
  | cons d rest =>
    by_cases h : (isHigh c && isLow d) = true
    · exact ⟨[d], characters rest, characters_pair h⟩
    · exact ⟨[], characters (d :: rest), characters_unit h⟩

theorem characters_flatten (text : Text) : (characters text).flatten = text := by
  fun_induction characters text with
  | case1 => rfl
  | case2 c => rfl
  | case3 c d rest h ih => simp [ih]
  | case4 c d rest h ih => simp [ih]

theorem characters_characters (text : Text) : Characters (characters text) := by
  rw [Characters, characters_flatten]

theorem characters_split (text : Text) {cs ds : List Text} (h : characters text = cs ++ ds) :
    Characters cs ∧ Characters ds := by
  fun_induction characters text generalizing cs with
  | case1 =>
    obtain ⟨rfl, rfl⟩ := List.append_eq_nil_iff.mp h.symm
    exact ⟨rfl, rfl⟩
  | case2 c =>
    cases cs with
    | nil =>
      have all : [[c]] = ds := h
      subst all
      exact ⟨rfl, rfl⟩
    | cons x cs =>
      obtain ⟨rfl, tail⟩ := List.cons.inj h
      obtain ⟨rfl, rfl⟩ := List.append_eq_nil_iff.mp tail.symm
      exact ⟨rfl, rfl⟩
  | case3 c d rest pair ih =>
    cases cs with
    | nil =>
      have all : [c, d] :: characters rest = ds := h
      subst all
      refine ⟨rfl, ?_⟩
      simp only [Characters, List.flatten_cons, characters_flatten, List.cons_append,
        List.nil_append, characters_pair pair]
    | cons x cs =>
      obtain ⟨rfl, tail⟩ := List.cons.inj h
      obtain ⟨first, second⟩ := ih tail
      refine ⟨?_, second⟩
      simp only [Characters, List.flatten_cons, List.cons_append, List.nil_append,
        characters_pair pair]
      rw [show characters cs.flatten = cs from first]
  | case4 c d rest unit ih =>
    cases cs with
    | nil =>
      have all : [c] :: characters (d :: rest) = ds := h
      subst all
      refine ⟨rfl, ?_⟩
      simp only [Characters, List.flatten_cons, characters_flatten, List.cons_append,
        List.nil_append, characters_unit unit]
    | cons x cs =>
      obtain ⟨rfl, tail⟩ := List.cons.inj h
      obtain ⟨first, second⟩ := ih tail
      refine ⟨?_, second⟩
      cases cs with
      | nil => rfl
      | cons y cs =>
        -- the character that follows begins with the code unit that `c` is no pair with
        obtain ⟨t, more, begins⟩ := characters_cons d rest
        have same : y = d :: t := (List.cons.inj (tail.symm.trans begins)).1
        subst same
        have later : characters (d :: (t ++ cs.flatten)) = (d :: t) :: cs := first
        simp only [Characters, List.flatten_cons, List.cons_append, List.nil_append,
          characters_unit unit, later]

theorem Characters.left (h : Characters (cs ++ ds)) : Characters cs := (characters_split _ h).1

theorem Characters.right (h : Characters (cs ++ ds)) : Characters ds := (characters_split _ h).2

theorem Characters.singleton (h : Characters cs) (mem : character ∈ cs) :
    characters character = [character] := by
  obtain ⟨before, after, rfl⟩ := List.append_of_mem mem
  have rest : Characters ([character] ++ after) := h.right
  have alone : Characters [character] := rest.left
  simpa [Characters] using alone

theorem octets_le_four (h : Characters cs) (mem : character ∈ cs) : octets character ≤ 4 := by
  simp only [octets, encode, h.singleton mem, List.flatMap_singleton, String.length_utf8EncodeChar]
  exact Char.utf8Size_le_four _

theorem octets_flatten (h : Characters cs) : octets cs.flatten = (cs.map octets).sum := by
  have sizes : cs.map octets = cs.map fun character =>
      (String.utf8EncodeChar (scalar character)).length := by
    refine List.map_congr_left fun character mem => ?_
    simp only [octets, encode, h.singleton mem, List.flatMap_singleton]
  rw [sizes, octets, encode, show characters cs.flatten = cs from h, List.length_flatMap]

theorem octets_plain_cons (plain : isHigh c = false) :
    octets (c :: text) = octets [c] + octets text := by
  simp only [octets, encode, characters_plain plain, List.flatMap_cons, List.length_append,
    characters, List.flatMap_nil, List.length_nil, Nat.add_zero]

end Characters

end Turret.CodeUnits
