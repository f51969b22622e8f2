import Mathlib.Data.List.Forall2

namespace OneTape.Json

def IsSpaces (s : List Char) : Prop := ∀ c ∈ s, c ∈ [' ', '\t', '\n', '\r']

instance (s : List Char) : Decidable (IsSpaces s) := List.decidableBAll _ s

def IsHex (c : Char) (n : Nat) : Prop := n < 16 ∧ (c = n.digitChar ∨ c = n.digitChar.toUpper)

instance (c : Char) (n : Nat) : Decidable (IsHex c n) :=
  inferInstanceAs (Decidable (n < 16 ∧ (c = n.digitChar ∨ c = n.digitChar.toUpper)))

inductive IsUnit : Nat → List Char → Prop where
  | mk {a b c d : Char} {i j k l : Nat} (ha : IsHex a i) (hb : IsHex b j) (hc : IsHex c k)
      (hd : IsHex d l) : IsUnit (((i * 16 + j) * 16 + k) * 16 + l) [a, b, c, d]

def shortEscapes : List (Char × Char) :=
  [('"', '"'), ('\\', '\\'), ('/', '/'), ('b', '\x08'), ('f', '\x0c'), ('n', '\n'), ('r', '\r'),
    ('t', '\t')]

/-- The ways to put a character into a string. Beyond the first plane two units stand for it. -/
inductive SpellsChar (c : Char) : List Char → Prop where
  | plain (hcontrol : 0x20 ≤ c.toNat) (hquote : c ≠ '"') (hbackslash : c ≠ '\\') : SpellsChar c [c]
  | short {letter : Char} (h : (letter, c) ∈ shortEscapes) : SpellsChar c ['\\', letter]
  | unit {digits : List Char} (h : IsUnit c.toNat digits) : SpellsChar c ('\\' :: 'u' :: digits)
  | pair {high low : List Char} (hc : 0x10000 ≤ c.toNat)
      (hhigh : IsUnit (0xD800 + (c.toNat - 0x10000) / 0x400) high)
      (hlow : IsUnit (0xDC00 + (c.toNat - 0x10000) % 0x400) low) :
      SpellsChar c ('\\' :: 'u' :: (high ++ '\\' :: 'u' :: low))

def SpellsString (x : String) (s : List Char) : Prop :=
  ∃ parts, List.Forall₂ SpellsChar x.toList parts ∧ s = '"' :: (parts.flatten ++ ['"'])

/-- What a string may be made of, whether it stands for characters or not. -/
inductive IsStringPart : List Char → Prop where
  | plain {c : Char} (hcontrol : 0x20 ≤ c.toNat) (hquote : c ≠ '"') (hbackslash : c ≠ '\\') :
      IsStringPart [c]
  | short {letter c : Char} (h : (letter, c) ∈ shortEscapes) : IsStringPart ['\\', letter]
  | unit {n : Nat} {digits : List Char} (h : IsUnit n digits) :
      IsStringPart ('\\' :: 'u' :: digits)

def IsString (s : List Char) : Prop :=
  ∃ parts : List (List Char), (∀ part ∈ parts, IsStringPart part) ∧
    s = '"' :: (parts.flatten ++ ['"'])

def IsDigits (s : List Char) : Prop := s ≠ [] ∧ ∀ c ∈ s, c.isDigit = true

instance (s : List Char) : Decidable (IsDigits s) :=
  have : Decidable (∀ c ∈ s, c.isDigit = true) := List.decidableBAll _ s
  inferInstanceAs (Decidable (s ≠ [] ∧ ∀ c ∈ s, c.isDigit = true))

def IsWhole (s : List Char) : Prop := IsDigits s ∧ (s.head? = some '0' → s = ['0'])

instance (s : List Char) : Decidable (IsWhole s) :=
  inferInstanceAs (Decidable (IsDigits s ∧ (s.head? = some '0' → s = ['0'])))

def IsFraction (s : List Char) : Prop := s = [] ∨ ∃ digits, IsDigits digits ∧ s = '.' :: digits

def IsExponent (s : List Char) : Prop :=
  s = [] ∨ ∃ mark ∈ ['e', 'E'], ∃ sign ∈ [[], ['+'], ['-']], ∃ digits, IsDigits digits ∧
    s = mark :: (sign ++ digits)

def IsNumber (s : List Char) : Prop :=
  ∃ sign ∈ [[], ['-']], ∃ whole fraction exponent, IsWhole whole ∧ IsFraction fraction ∧
    IsExponent exponent ∧ s = sign ++ (whole ++ (fraction ++ exponent))

/-- What a part of a text is. An element is a value with the white space around it, and elements and
members are parted by commas. -/
inductive Piece where
  | value
  | element
  | elements
  | member
  | members

inductive IsPiece : Piece → List Char → Prop where
  | null : IsPiece .value ['n', 'u', 'l', 'l']
  | true : IsPiece .value ['t', 'r', 'u', 'e']
  | false : IsPiece .value ['f', 'a', 'l', 's', 'e']
  | number {s : List Char} (h : IsNumber s) : IsPiece .value s
  | string {s : List Char} (h : IsString s) : IsPiece .value s
  | emptyArray {gap : List Char} (h : IsSpaces gap) : IsPiece .value ('[' :: (gap ++ [']']))
  | array {s : List Char} (h : IsPiece .elements s) : IsPiece .value ('[' :: (s ++ [']']))
  | emptyObject {gap : List Char} (h : IsSpaces gap) : IsPiece .value ('\x7b' :: (gap ++ ['\x7d']))
  | object {s : List Char} (h : IsPiece .members s) : IsPiece .value ('\x7b' :: (s ++ ['\x7d']))
  | element {gap s gap' : List Char} (hgap : IsSpaces gap) (h : IsPiece .value s)
      (hgap' : IsSpaces gap') : IsPiece .element (gap ++ (s ++ gap'))
  | lastElement {s : List Char} (h : IsPiece .element s) : IsPiece .elements s
  | elements {s more : List Char} (h : IsPiece .element s) (hmore : IsPiece .elements more) :
      IsPiece .elements (s ++ ',' :: more)
  | member {gap key gap' s : List Char} (hgap : IsSpaces gap) (hkey : IsString key)
      (hgap' : IsSpaces gap') (h : IsPiece .element s) :
      IsPiece .member (gap ++ (key ++ (gap' ++ ':' :: s)))
  | lastMember {s : List Char} (h : IsPiece .member s) : IsPiece .members s
  | members {s more : List Char} (h : IsPiece .member s) (hmore : IsPiece .members more) :
      IsPiece .members (s ++ ',' :: more)

def Padded (text : List Char → Prop) (s : List Char) : Prop :=
  ∃ gap t gap', IsSpaces gap ∧ text t ∧ IsSpaces gap' ∧ s = gap ++ (t ++ gap')

def MemberOf (key : String) (text : List Char → Prop) (s : List Char) : Prop :=
  ∃ gap name gap' t, IsSpaces gap ∧ SpellsString key name ∧ IsSpaces gap' ∧ Padded text t ∧
    s = gap ++ (name ++ (gap' ++ ':' :: t))

/-- The texts of some things in their order, parted by commas. -/
inductive Row {ι : Type} (text : ι → List Char → Prop) : List ι → List Char → Prop where
  | empty {gap : List Char} (h : IsSpaces gap) : Row text [] gap
  | last {i : ι} {s : List Char} (h : text i s) : Row text [i] s
  | more {i j : ι} {others : List ι} {s t : List Char} (h : text i s)
      (hmore : Row text (j :: others) t) : Row text (i :: j :: others) (s ++ ',' :: t)

def ArrayOf (text : List Char → Prop) (s : List Char) : Prop :=
  ∃ t, text t ∧ s = '[' :: (t ++ [']'])

def ObjectOf (text : List Char → Prop) (s : List Char) : Prop :=
  ∃ t, text t ∧ s = '\x7b' :: (t ++ ['\x7d'])

variable {text text' : List Char → Prop} {s : List Char}

theorem Padded.imp (h : ∀ t, text t → text' t) (hs : Padded text s) : Padded text' s := by
  obtain ⟨gap, t, gap', hgap, ht, hgap', rfl⟩ := hs
  exact ⟨gap, t, gap', hgap, h t ht, hgap', rfl⟩

theorem MemberOf.imp {key : String} (h : ∀ t, text t → text' t) (hs : MemberOf key text s) :
    MemberOf key text' s := by
  obtain ⟨gap, name, gap', t, hgap, hname, hgap', ht, rfl⟩ := hs
  exact ⟨gap, name, gap', t, hgap, hname, hgap', ht.imp h, rfl⟩

theorem Row.imp {ι : Type} {text text' : ι → List Char → Prop} {is : List ι}
    (h : ∀ i ∈ is, ∀ t, text i t → text' i t) (hs : Row text is s) : Row text' is s := by
  induction hs with
  | empty hgap => exact .empty hgap
  | last ht => exact .last (h _ List.mem_cons_self _ ht)
  | more ht _ ih =>
    exact .more (h _ List.mem_cons_self _ ht) (ih fun i hi ↦ h i (List.mem_cons_of_mem _ hi))

theorem Row.of_map {ι κ : Type} {text : κ → List Char → Prop} {f : ι → κ} {is : List ι}
    (h : Row (fun i ↦ text (f i)) is s) : Row text (is.map f) s := by
  induction h with
  | empty hgap => exact .empty hgap
  | last ht => exact .last ht
  | more ht _ ih => exact .more ht ih

end OneTape.Json
