import Mathlib.Algebra.Group.Nat.Defs
import Mathlib.Data.List.Basic

/-! # Flat JSON

    JSON values, and the compact text of an object whose members are scalars with
    nothing to escape. A reader of such texts shows that the text of an object
    determines its members.
-/

namespace FlatJson

/-- A JSON value. A number is kept if it is a natural number that fits 64 bits. -/
inductive Json where
  | null
  | bool (b : Bool)
  | nat (n : Nat)
  | number
  | str (s : String)
  | arr (items : List Json)
  | obj (members : List (String × Json))

/-- The character stands for itself in a JSON string. -/
def plain (c : Char) : Bool := c ≠ '"' ∧ c ≠ '\\' ∧ 0x20 ≤ c.val

/-- A string of such characters. -/
def Plain (s : String) : Prop := ∀ c ∈ s.toList, plain c = true

instance (s : String) : Decidable (Plain s) := List.decidableBAll _ s.toList

/-- A scalar with nothing to escape. -/
def Json.Simple : Json → Prop
  | .null => True
  | .bool _ => True
  | .nat n => n < 2 ^ 64
  | .number => False
  | .str s => Plain s
  | .arr _ => False
  | .obj _ => False

/-! ## Texts -/

/-- The text of a string. -/
def string_text (s : String) : List Char := '"' :: s.toList ++ ['"']

/-- The text of a scalar. -/
def scalar_text : Json → List Char
  | .null => ['n', 'u', 'l', 'l']
  | .bool true => ['t', 'r', 'u', 'e']
  | .bool false => ['f', 'a', 'l', 's', 'e']
  | .nat n => Nat.toDigits 10 n
  | .str s => string_text s
  | _ => []

/-- The text of a member. -/
def member_text (m : String × Json) : List Char := string_text m.1 ++ ':' :: scalar_text m.2

/-- The text of the members after the first. -/
def rest_text : List (String × Json) → List Char
  | [] => ['}']
  | m :: members => ',' :: member_text m ++ rest_text members

/-- The text of an object. -/
def object_text : List (String × Json) → List Char
  | [] => ['{', '}']
  | m :: members => '{' :: member_text m ++ rest_text members

/-- An object is in braces. -/
theorem object_text_braces (members : List (String × Json)) :
    ∃ body, object_text members = '{' :: body ++ ['}'] := by
  have hrest (members : List (String × Json)) : ∃ body, rest_text members = body ++ ['}'] := by
    induction members with
    | nil => exact ⟨[], rfl⟩
    | cons m members ih =>
      obtain ⟨body, hbody⟩ := ih
      refine ⟨',' :: member_text m ++ body, ?_⟩
      show ',' :: member_text m ++ rest_text members = _
      rw [hbody, List.append_assoc]
  cases members with
  | nil => exact ⟨[], rfl⟩
  | cons m members =>
    obtain ⟨body, hbody⟩ := hrest members
    refine ⟨member_text m ++ body, ?_⟩
    show '{' :: member_text m ++ rest_text members = _
    rw [hbody, ← List.append_assoc]
    rfl

/-! ## The reader -/

/-- A string, up to its closing quote. -/
def read_string : List Char → Option (List Char × List Char)
  | [] => none
  | c :: text =>
    if c = '"' then some ([], text)
    else if plain c then (read_string text).map fun (s, rest) => (c :: s, rest)
    else none

/-- Digits, behind those that were read. -/
def read_digits : List Char → Nat → Nat × List Char
  | [], n => (n, [])
  | c :: text, n =>
    if c.isDigit then read_digits text (10 * n + (c.toNat - '0'.toNat)) else (n, c :: text)

/-- A scalar. -/
def read_scalar : List Char → Option (Json × List Char)
  | '"' :: text => (read_string text).map fun (s, rest) => (.str (String.ofList s), rest)
  | 'n' :: 'u' :: 'l' :: 'l' :: rest => some (.null, rest)
  | 't' :: 'r' :: 'u' :: 'e' :: rest => some (.bool true, rest)
  | 'f' :: 'a' :: 'l' :: 's' :: 'e' :: rest => some (.bool false, rest)
  | c :: text =>
    if c.isDigit ∧ (read_digits (c :: text) 0).1 < 2 ^ 64 then
      some (.nat (read_digits (c :: text) 0).1, (read_digits (c :: text) 0).2)
    else none
  | [] => none

/-- A member. -/
def read_member : List Char → Option ((String × Json) × List Char)
  | '"' :: text =>
    match read_string text with
    | some (key, ':' :: rest) =>
      (read_scalar rest).map fun (v, rest) => ((String.ofList key, v), rest)
    | _ => none
  | _ => none

/-- The members after the first, as many as the text has characters at most. -/
def read_rest : Nat → List Char → Option (List (String × Json))
  | _, ['}'] => some []
  | fuel + 1, ',' :: text =>
    match read_member text with
    | some (m, rest) => (read_rest fuel rest).map fun members => m :: members
    | none => none
  | _, _ => none

/-- An object. -/
def read_object (text : String) : Option Json :=
  match text.toList with
  | '{' :: text =>
    if text = ['}'] then some (.obj [])
    else
      match read_member text with
      | some (m, rest) => (read_rest rest.length rest).map fun members => .obj (m :: members)
      | none => none
  | _ => none

/-! ## The text of an object is read back -/

theorem read_string_text {s : List Char} (hs : ∀ c ∈ s, plain c = true) (rest : List Char) :
    read_string (s ++ '"' :: rest) = some (s, rest) := by
  induction s with
  | nil => rfl
  | cons c s ih =>
    have hc := hs c List.mem_cons_self
    have hquote : c ≠ '"' := by
      unfold plain at hc
      exact (of_decide_eq_true hc).1
    rw [List.cons_append, read_string, if_neg hquote, if_pos hc,
      ih fun c' hc' => hs c' (List.mem_cons_of_mem _ hc')]
    rfl

/-- What follows a scalar is no digit. -/
def NoDigit (text : List Char) : Prop := ∀ c ∈ text.head?, c.isDigit = false

theorem read_digits_text {digits : List Char} (hdigits : ∀ c ∈ digits, c.isDigit = true)
    {rest : List Char} (hrest : NoDigit rest) :
    ∀ n, read_digits (digits ++ rest) n = (Nat.ofDigitChars 10 digits n, rest) := by
  induction digits with
  | nil =>
    intro n
    cases rest with
    | nil => rfl
    | cons c rest =>
      have hc : c.isDigit = false := hrest c rfl
      rw [List.nil_append, read_digits, if_neg (by simp [hc])]
      rfl
  | cons c digits ih =>
    intro n
    rw [List.cons_append, read_digits, if_pos (hdigits c List.mem_cons_self),
      ih (fun c' hc' => hdigits c' (List.mem_cons_of_mem _ hc')), Nat.ofDigitChars_cons]

theorem read_scalar_text {v : Json} (hv : v.Simple) {rest : List Char} (hrest : NoDigit rest) :
    read_scalar (scalar_text v ++ rest) = some (v, rest) := by
  cases v with
  | null => rfl
  | bool b => cases b <;> rfl
  | number | arr | obj => cases hv
  | str s =>
    have hread := read_string_text hv rest
    show read_scalar ('"' :: (s.toList ++ ['"']) ++ rest) = _
    rw [List.cons_append, List.append_assoc, List.singleton_append, read_scalar, hread]
    simp
  | nat n =>
    have hdigits : ∀ c ∈ Nat.toDigits 10 n, c.isDigit = true := fun c hc =>
      Nat.isDigit_of_mem_toDigits (by decide) (by decide) hc
    have hread := read_digits_text hdigits hrest 0
    rw [Nat.ofDigitChars_ten_toDigits] at hread
    show read_scalar (Nat.toDigits 10 n ++ rest) = _
    cases htext : Nat.toDigits 10 n with
    | nil => exact absurd htext Nat.toDigits_ne_nil
    | cons c digits =>
      rw [htext] at hread hdigits
      have hc : c.isDigit = true := hdigits c List.mem_cons_self
      -- A digit begins no other scalar.
      have hother : c ≠ '"' ∧ c ≠ 'n' ∧ c ≠ 't' ∧ c ≠ 'f' := by
        refine ⟨?_, ?_, ?_, ?_⟩ <;>
        · rintro rfl
          exact absurd hc (by decide)
      rw [List.cons_append] at hread ⊢
      rw [read_scalar.eq_def]
      split
      · rename_i heq
        exact absurd (List.cons.inj heq).1 hother.1
      · rename_i heq
        exact absurd (List.cons.inj heq).1 hother.2.1
      · rename_i heq
        exact absurd (List.cons.inj heq).1 hother.2.2.1
      · rename_i heq
        exact absurd (List.cons.inj heq).1 hother.2.2.2
      · rename_i heq
        cases heq
        rw [hread, if_pos ⟨hc, hv⟩]
      · rename_i heq
        cases heq

theorem noDigit_rest_text (members : List (String × Json)) : NoDigit (rest_text members) := by
  intro c hc
  cases members with
  | nil =>
    cases hc
    decide
  | cons m members =>
    cases hc
    decide

theorem read_member_text {m : String × Json} (hkey : Plain m.1) (hv : m.2.Simple)
    {rest : List Char} (hrest : NoDigit rest) :
    read_member (member_text m ++ rest) = some (m, rest) := by
  have hread := read_string_text hkey (':' :: (scalar_text m.2 ++ rest))
  show read_member ('"' :: (m.1.toList ++ ['"']) ++ ':' :: scalar_text m.2 ++ rest) = _
  rw [List.append_assoc, List.cons_append, List.append_assoc, List.singleton_append,
    List.cons_append, read_member, hread]
  simp [read_scalar_text hv hrest]

theorem read_rest_text (members : List (String × Json)) : ∀ fuel,
    (∀ m ∈ members, Plain m.1 ∧ m.2.Simple) → members.length ≤ fuel →
      read_rest fuel (rest_text members) = some members := by
  induction members with
  | nil =>
    intro fuel _ _
    cases fuel <;> rfl
  | cons m members ih =>
    intro fuel hsimple hfuel
    obtain ⟨hkey, hv⟩ := hsimple m List.mem_cons_self
    cases fuel with
    | zero => cases hfuel
    | succ fuel =>
      have hrest := ih fuel (fun m' hm' => hsimple m' (List.mem_cons_of_mem _ hm'))
        (Nat.le_of_succ_le_succ hfuel)
      have hm := read_member_text hkey hv (noDigit_rest_text members)
      show read_rest (fuel + 1) (',' :: member_text m ++ rest_text members) = _
      rw [List.cons_append, read_rest, hm]
      simp [hrest]

theorem length_le_rest_text (members : List (String × Json)) :
    members.length ≤ (rest_text members).length := by
  induction members with
  | nil => exact Nat.zero_le _
  | cons m members ih =>
    show members.length + 1 ≤ (',' :: member_text m ++ rest_text members).length
    rw [List.cons_append, List.length_cons, List.length_append]
    omega

/-- The reader gives back the members of an object. -/
theorem read_object_text {members : List (String × Json)}
    (hsimple : ∀ m ∈ members, Plain m.1 ∧ m.2.Simple) :
    read_object (String.ofList (object_text members)) = some (.obj members) := by
  unfold read_object
  rw [String.toList_ofList]
  cases members with
  | nil => rfl
  | cons m members =>
    obtain ⟨hkey, hv⟩ := hsimple m List.mem_cons_self
    have hm := read_member_text hkey hv (noDigit_rest_text members)
    have hrest := read_rest_text members _
      (fun m' hm' => hsimple m' (List.mem_cons_of_mem _ hm')) (length_le_rest_text members)
    have hother : member_text m ++ rest_text members ≠ ['}'] := by
      intro heq
      exact absurd (List.cons.inj heq).1 (by decide)
    show (if member_text m ++ rest_text members = ['}'] then some (Json.obj []) else
      match read_member (member_text m ++ rest_text members) with
      | some (m, rest) => (read_rest rest.length rest).map fun members => .obj (m :: members)
      | none => none) = _
    rw [if_neg hother, hm]
    simp [hrest]

end FlatJson
