import Mathlib.Algebra.GroupWithZero.Nat
import Mathlib.Data.List.DropRight

/-!
The text operations of the modelled language: `strip`, `lower`, `split`,
`startswith`, a substitution of character runs, and UTF-8 sizes.

Text is `String`; every operation is a list function on its characters, so it
evaluates in the kernel. White space is the language's own set, not ASCII
white space (`isSpace`).

`lower` maps the ASCII letters. The programs verified here lower text only to
compare it with ASCII words; no character outside ASCII lowers to an ASCII
letter, except the Kelvin sign to `k` and the dotted capital I to `i` followed
by a combining dot, so comparison with an ASCII word that has no `k` gives the
same answer under the full case mapping.
-/

namespace AgentOs.Lib.Text

/-- The characters `str.isspace` accepts and `str.strip` removes. -/
def isSpace (c : Char) : Bool :=
  let n := c.toNat
  (9 ≤ n && n ≤ 13) || (0x1c ≤ n && n ≤ 0x20) || n == 0x85 || n == 0xa0 || n == 0x1680 ||
    (0x2000 ≤ n && n ≤ 0x200a) || n == 0x2028 || n == 0x2029 || n == 0x202f || n == 0x205f ||
    n == 0x3000

/-- `s.strip()`. -/
def strip (s : String) : String :=
  .ofList ((s.toList.dropWhile isSpace).rdropWhile isSpace)

/-- `s.lstrip(c)` for one character. -/
def lstripChar (c : Char) (s : String) : String :=
  .ofList (s.toList.dropWhile (· == c))

/-- `s.lower()` on ASCII letters (see the module header). -/
def lower (s : String) : String :=
  .ofList (s.toList.map Char.toLower)

/-- `s.startswith(prefix)`. -/
def startsWith (s pre : String) : Bool :=
  pre.toList.isPrefixOf s.toList

/-- `s[n:]`. -/
def drop (s : String) (n : Nat) : String :=
  .ofList (s.toList.drop n)

/-- `s[:n]`. -/
def take (s : String) (n : Nat) : String :=
  .ofList (s.toList.take n)

/-- `s[:n]` for any integer: a negative bound counts from the end. -/
def sliceTo (s : String) (n : Int) : String :=
  if 0 ≤ n then take s n.toNat else take s (s.toList.length - n.natAbs)

/-- `s.split()`: the maximal runs of characters that are not white space. -/
def words (s : String) : List String :=
  ((s.toList.splitOnP isSpace).filter (· ≠ [])).map String.ofList

/-- `s.split(maxsplit=1)`: the first word and, when more text follows it, that
text from its first character that is not white space. -/
def splitFirst (s : String) : List String :=
  let body := s.toList.dropWhile isSpace
  let first := body.takeWhile (!isSpace ·)
  let rest := (body.dropWhile (!isSpace ·)).dropWhile isSpace
  if first = [] then []
  else if rest = [] then [.ofList first]
  else [.ofList first, .ofList rest]

/-- The text before and after the first occurrence of `sep`. -/
def cutList (sep : List Char) : List Char → Option (List Char × List Char)
  | [] => if sep = [] then some ([], []) else none
  | c :: cs =>
      if sep.isPrefixOf (c :: cs) then some ([], (c :: cs).drop sep.length)
      else (cutList sep cs).map fun p => (c :: p.1, p.2)

/-- `s.split(sep, 1)` where `sep` occurs in `s`, and `none` where it does not. -/
def cut (s sep : String) : Option (String × String) :=
  (cutList sep.toList s.toList).map fun p => (.ofList p.1, .ofList p.2)

/-- `re.sub` of every maximal run of characters satisfying `p` by `by_`. -/
def substRuns (p : Char → Bool) (by_ : Char) (s : String) : String :=
  .ofList (go s.toList)
where
  go : List Char → List Char
    | [] => []
    | [c] => if p c then [by_] else [c]
    | c :: d :: cs =>
        if p c then (if p d then go (d :: cs) else by_ :: go (d :: cs)) else c :: go (d :: cs)

/-- `sep.join(parts)`. -/
def join (sep : String) (parts : List String) : String :=
  sep.intercalate parts

/-- Whether `s.strip()` is empty: Python's test for a blank text. -/
def isBlank (s : String) : Bool :=
  s.toList.all isSpace

/-- `len(s.encode("utf-8"))`. -/
def utf8Length (s : String) : Nat :=
  (s.toList.map Char.utf8Size).sum

/-- The longest prefix of whole characters that takes at most `budget` bytes. -/
def takeBytes : Nat → List Char → List Char
  | _, [] => []
  | budget, c :: cs =>
      if c.utf8Size ≤ budget then c :: takeBytes (budget - c.utf8Size) cs else []

/-! ### Blank and stripped text -/

/-- The bytes kept by `takeBytes` fit the budget. -/
theorem takeBytes_le (budget : Nat) (cs : List Char) :
    ((takeBytes budget cs).map Char.utf8Size).sum ≤ budget := by
  induction cs generalizing budget with
  | nil => simp [takeBytes]
  | cons c cs ih =>
      unfold takeBytes
      split
      · have := ih (budget - c.utf8Size)
        simp only [List.map_cons, List.sum_cons]
        omega
      · simp

/-- What `takeBytes` keeps is a prefix of the text. -/
theorem takeBytes_prefix (budget : Nat) (cs : List Char) : takeBytes budget cs <+: cs := by
  induction cs generalizing budget with
  | nil => simp [takeBytes]
  | cons c cs ih =>
      unfold takeBytes
      split
      · exact (List.prefix_cons_inj c).mpr (ih _)
      · exact List.nil_prefix

/-- The text before the first separator is unique. -/
theorem append_separator_inj {sep : Char} {a b s t : List Char} (ha : sep ∉ a) (hb : sep ∉ b)
    (h : a ++ sep :: s = b ++ sep :: t) : a = b ∧ s = t := by
  induction a generalizing b with
  | nil =>
      cases b with
      | nil => exact ⟨rfl, (List.cons.inj h).2⟩
      | cons c b => exact absurd (List.mem_cons.mpr (.inl (List.cons.inj h).1)) hb
  | cons c a ih =>
      cases b with
      | nil => exact absurd (List.mem_cons.mpr (.inl (List.cons.inj h).1.symm)) ha
      | cons d b =>
          obtain ⟨rfl, rest⟩ := List.cons.inj h
          obtain ⟨rfl, rfl⟩ := ih (fun m => ha (List.mem_cons_of_mem _ m))
            (fun m => hb (List.mem_cons_of_mem _ m)) rest
          exact ⟨rfl, rfl⟩

example : strip "  Rejected: no \n" = "Rejected: no" := by decide

example : splitFirst "memory_write  a.md :: x " = ["memory_write", "a.md :: x "] := by decide

/-! ### Letters of ASCII -/

theorem isUpper_eq (c : Char) : c.isUpper = decide (c.val ≥ 'A'.val ∧ c.val ≤ 'Z'.val) := rfl

theorem isLower_eq (c : Char) :
    c.isLower = (decide (c.val ≥ 'a'.val) && decide (c.val ≤ 'z'.val)) := rfl

theorem isAlpha_eq (c : Char) : c.isAlpha = (c.isUpper || c.isLower) := rfl

end AgentOs.Lib.Text

/-! ### Parts of a text -/

namespace AgentOs

/-- One text occurs in another. -/
def Occurs (part text : String) : Prop :=
  part.toList <:+: text.toList

instance (part text : String) : Decidable (Occurs part text) :=
  inferInstanceAs (Decidable (_ <:+: _))

theorem Occurs.refl (text : String) : Occurs text text :=
  List.infix_refl _

/-- Each part of a joined text occurs in it. -/
theorem occurs_join (sep : String) {parts : List String} {part : String} (mem : part ∈ parts) :
    Occurs part (Lib.Text.join sep parts) := by
  obtain ⟨before, after, rfl⟩ := List.append_of_mem mem
  have tail : Occurs part (Lib.Text.join sep (part :: after)) := by
    cases after with
    | nil =>
        rw [Lib.Text.join, String.intercalate_singleton]
        exact .refl part
    | cons next after =>
        rw [Lib.Text.join, String.intercalate_cons_cons, Occurs, String.append_assoc,
          String.toList_append]
        exact (List.prefix_append _ _).isInfix
  unfold Lib.Text.join at tail ⊢
  cases before with
  | nil => exact tail
  | cons first before =>
      rw [String.intercalate_append_of_ne_nil (List.cons_ne_nil _ _) (List.cons_ne_nil _ _),
        Occurs, String.toList_append]
      exact tail.trans (List.suffix_append _ _).isInfix

/-- What has no separator occurs on one side of it. -/
theorem infix_around {α : Type*} {c : α} {part left right : List α} (none : c ∉ part) :
    part <:+: left ++ c :: right ↔ part <:+: left ∨ part <:+: right := by
  constructor
  · rintro ⟨before, after, text⟩
    rw [List.append_assoc, List.append_eq_append_iff] at text
    rcases text with ⟨rest, rfl, text⟩ | ⟨rest, rfl, text⟩
    · rw [List.append_eq_append_iff] at text
      rcases text with ⟨more, rfl, -⟩ | ⟨more, rfl, text⟩
      · exact .inl ⟨before, more, by rw [List.append_assoc]⟩
      · cases more with
        | nil =>
            rw [List.append_nil]
            exact .inl (List.suffix_append _ _).isInfix
        | cons d more =>
            cases text
            exact absurd (List.mem_append_right _ List.mem_cons_self) none
    · cases rest with
      | nil =>
          cases part with
          | nil => exact .inl List.nil_infix
          | cons d part =>
              cases text
              exact absurd List.mem_cons_self none
      | cons d rest =>
          cases text
          exact .inr ⟨rest, after, List.append_assoc ..⟩
  · rintro (first | second)
    · exact first.trans (List.prefix_append _ _).isInfix
    · exact second.trans ((List.suffix_cons _ _).isInfix.trans (List.suffix_append _ _).isInfix)

/-- A text without the separator occurs in a joined text where it occurs in a part. -/
theorem occurs_join_iff {c : Char} {part : String} {parts : List String} (some : part ≠ "")
    (none : c ∉ part.toList) :
    Occurs part (Lib.Text.join (.singleton c) parts) ↔ ∃ whole ∈ parts, Occurs part whole := by
  constructor
  · intro occurs
    unfold Lib.Text.join at occurs
    induction parts with
    | nil =>
        rw [String.intercalate_nil, Occurs, String.toList_empty, List.infix_nil] at occurs
        exact absurd (String.toList_inj.mp occurs) some
    | cons first parts ih =>
        cases parts with
        | nil =>
            rw [String.intercalate_singleton] at occurs
            exact ⟨first, List.mem_cons_self, occurs⟩
        | cons second parts =>
            rw [String.intercalate_cons_cons, Occurs, String.append_assoc, String.toList_append,
              String.toList_append, String.toList_singleton, List.singleton_append,
              infix_around none] at occurs
            rcases occurs with here | later
            · exact ⟨first, List.mem_cons_self, here⟩
            · obtain ⟨whole, mem, there⟩ := ih later
              exact ⟨whole, List.mem_cons_of_mem _ mem, there⟩
  · rintro ⟨whole, mem, there⟩
    exact there.trans (occurs_join _ mem)

theorem Occurs.append_left {part text : String} (occurs : Occurs part text) (before : String) :
    Occurs part (before ++ text) := by
  rw [Occurs, String.toList_append]
  exact occurs.trans (List.suffix_append _ _).isInfix

end AgentOs
