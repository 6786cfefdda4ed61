import Mathlib.Data.List.Basic

/-!
# Texts that PostgreSQL reads as a uuid

A `uuid` column stores sixteen bytes: a text that is written to it or compared
with it is read first, and what comes back is the canonical text.  The reader
takes thirty-two hexadecimal digits of either case, a hyphen or none after
every group of four but the last, and braces or none around them.
-/

namespace RulesEngine.Foundations

/-! ### Reading -/

def lowerHexDigits : List Char :=
  ['0', '1', '2', '3', '4', '5', '6', '7', '8', '9', 'a', 'b', 'c', 'd', 'e', 'f']

/-- To decide a property of some characters, only these are looked at. -/
instance (priority := 2000) decidableForallMem (list : List Char) (P : Char → Prop)
    [DecidablePred P] : Decidable (∀ c ∈ list, P c) := List.decidableBAll P list

/-- Four hexadecimal digits in lower case. -/
structure HexGroup where
  a : Char
  b : Char
  c : Char
  d : Char
  digits : ∀ digit ∈ [a, b, c, d], digit ∈ lowerHexDigits

def HexGroup.chars (group : HexGroup) : List Char := [group.a, group.b, group.c, group.d]

/-- The group that four characters spell. -/
def readGroup (a b c d : Char) : Option HexGroup :=
  if h : ∀ digit ∈ [a.toLower, b.toLower, c.toLower, d.toLower], digit ∈ lowerHexDigits then
    some ⟨a.toLower, b.toLower, c.toLower, d.toLower, h⟩
  else none

def dropHyphen : List Char → List Char
  | '-' :: rest => rest
  | rest => rest

/-- So many groups, and the characters after them. -/
def readGroups : Nat → List Char → Option (List HexGroup × List Char)
  | 0, rest => some ([], rest)
  | n + 1, a :: b :: c :: d :: rest =>
      (readGroup a b c d).bind fun group =>
        (readGroups n (if n = 0 then rest else dropHyphen rest)).map fun (groups, rest) =>
          (group :: groups, rest)
  | _ + 1, _ => none

/-- Eight groups that nothing but the given characters follow. -/
def readClosed (close text : List Char) : Option (List HexGroup) :=
  (readGroups 8 text).bind fun (groups, rest) => if rest = close then some groups else none

/-- The eight groups of a uuid. -/
def readUuid (text : String) : Option (List HexGroup) :=
  match text.toList with
  | '{' :: rest => readClosed ['}'] rest
  | rest => readClosed [] rest

/-- The text is accepted by a `uuid` column. -/
def IsUuid (text : String) : Prop := (readUuid text).isSome = true

instance (text : String) : Decidable (IsUuid text) :=
  inferInstanceAs (Decidable (_ = true))

/-! ### Writing -/

/-- Hyphens stand after eight, twelve, sixteen and twenty digits. -/
def printGroups : List HexGroup → List Char
  | [] => []
  | group :: rest =>
      group.chars ++ ((if rest.length ∈ [6, 5, 4, 3] then ['-'] else []) ++ printGroups rest)

/-- The text of the uuid that PostgreSQL reads from a text.  A text that is no uuid,
    which no stored uuid equals, is kept but for the case of its letters. -/
def pgUuid (text : String) : String :=
  match readUuid text with
  | some groups => String.ofList (printGroups groups)
  | none => String.ofList (text.toList.map Char.toLower)

example : pgUuid "{9B2F4C1E7D35-4E0A8C61-5A3D2F7E8B90}" =
    "9b2f4c1e-7d35-4e0a-8c61-5a3d2f7e8b90" := by
  decide +kernel

/-! ### What is written is read back -/

theorem toLower_toLower (c : Char) : c.toLower.toLower = c.toLower := by
  have hval : ¬ (c.toLower.val ≥ 'A'.val ∧ c.toLower.val ≤ 'Z'.val) := by
    rw [Char.toLower.eq_def c]
    split <;> grind [UInt32.toNat_add, UInt32.le_iff_toNat_le]
  rw [Char.toLower.eq_def c.toLower, dif_neg hval]

theorem toLower_of_mem {c : Char} (h : c ∈ lowerHexDigits) : c.toLower = c := by
  have hall : ∀ c ∈ lowerHexDigits, c.toLower = c := by decide
  exact hall c h

theorem readGroup_chars (group : HexGroup) :
    readGroup group.a group.b group.c group.d = some group := by
  obtain ⟨a, b, c, d, hdigits⟩ := group
  have hlower : ∀ digit ∈ [a, b, c, d], digit.toLower = digit :=
    fun digit hdigit => toLower_of_mem (hdigits digit hdigit)
  have ha := hlower a (by simp)
  have hb := hlower b (by simp)
  have hc := hlower c (by simp)
  have hd := hlower d (by simp)
  simp only [readGroup, ha, hb, hc, hd, dif_pos hdigits]

theorem HexGroup.first_ne (group : HexGroup) {c : Char} (h : c ∉ lowerHexDigits) :
    group.a ≠ c := by
  rintro rfl
  exact h (group.digits group.a List.mem_cons_self)

theorem readGroups_printGroups (groups : List HexGroup) (tail : List Char) :
    readGroups groups.length (printGroups groups ++ tail) = some (groups, tail) := by
  induction groups with
  | nil => rfl
  | cons group rest ih =>
      have hnext : (if rest.length = 0 then
          (if rest.length ∈ [6, 5, 4, 3] then ['-'] else []) ++ printGroups rest ++ tail
        else dropHyphen ((if rest.length ∈ [6, 5, 4, 3] then ['-'] else []) ++
          printGroups rest ++ tail)) = printGroups rest ++ tail := by
        cases rest with
        | nil => rfl
        | cons next later =>
            rw [if_neg (by simp)]
            split
            · rfl
            · -- the next character is a digit
              have hne : next.a ≠ '-' := next.first_ne (by decide)
              simp only [printGroups, HexGroup.chars, List.cons_append, List.nil_append]
              unfold dropHyphen
              split
              · rename_i heq
                exact absurd (List.cons.inj heq).1 hne
              · rfl
      simp only [printGroups, HexGroup.chars, List.length_cons, List.cons_append,
        List.nil_append, readGroups, readGroup_chars, Option.bind_some, List.append_assoc]
      rw [← List.append_assoc, hnext, ih]
      rfl

theorem length_of_readGroups {n : Nat} {text rest : List Char} {groups : List HexGroup}
    (h : readGroups n text = some (groups, rest)) : groups.length = n := by
  induction n generalizing text groups with
  | zero =>
      cases h
      rfl
  | succ n ih =>
      match text with
      | a :: b :: c :: d :: text =>
          obtain ⟨group, -, h⟩ := Option.bind_eq_some_iff.mp h
          obtain ⟨⟨groups, rest⟩, hgroups, heq⟩ := Option.map_eq_some_iff.mp h
          cases heq
          rw [List.length_cons, ih hgroups]
      | [] | [_] | [_, _] | [_, _, _] => cases h

theorem readGroups_of_readClosed {close text : List Char} {groups : List HexGroup}
    (h : readClosed close text = some groups) : readGroups 8 text = some (groups, close) := by
  obtain ⟨⟨read, rest⟩, hread, h⟩ := Option.bind_eq_some_iff.mp h
  dsimp only at h
  split at h
  · rename_i hrest
    cases h
    rw [hread, hrest]
  · cases h

theorem length_of_readUuid {text : String} {groups : List HexGroup}
    (h : readUuid text = some groups) : groups.length = 8 := by
  unfold readUuid at h
  split at h <;> exact length_of_readGroups (readGroups_of_readClosed h)

theorem readUuid_printGroups {groups : List HexGroup} (h : groups.length = 8) :
    readUuid (String.ofList (printGroups groups)) = some groups := by
  have hread := readGroups_printGroups groups []
  rw [h, List.append_nil] at hread
  unfold readUuid
  rw [String.toList_ofList]
  split
  · rename_i rest heq
    -- a brace is no digit
    match groups with
    | group :: later =>
        have hne : group.a ≠ '{' := group.first_ne (by decide)
        exact absurd (List.cons.inj heq).1 hne
  · rw [readClosed, hread]
    rfl

/-! ### The case of the letters -/

/-- Only a character outside the alphabet is lowered to a mark. -/
theorem toLower_eq_mark {c mark : Char} (hmark : mark ∈ ['-', '{', '}', ':']) :
    c.toLower = mark ↔ c = mark := by
  have hsame : ∀ m ∈ ['-', '{', '}', ':'], m.toLower = m := by decide
  constructor
  · intro h
    rw [Char.toLower.eq_def] at h
    split at h
    · have hval := congrArg Char.toNat h
      simp only [List.mem_cons, List.not_mem_nil, or_false] at hmark
      rcases hmark with rfl | rfl | rfl | rfl <;>
        grind [UInt32.toNat_add, UInt32.le_iff_toNat_le, Char.toNat]
    · exact h
  · rintro rfl
    exact hsame c hmark

theorem dropHyphen_toLower (text : List Char) :
    dropHyphen (text.map Char.toLower) = (dropHyphen text).map Char.toLower := by
  cases text with
  | nil => rfl
  | cons c rest =>
      by_cases hc : c = '-'
      · subst hc
        rfl
      · have hlower : c.toLower ≠ '-' := fun h => hc ((toLower_eq_mark (by decide)).mp h)
        rw [List.map_cons]
        unfold dropHyphen
        split
        · rename_i heq
          exact absurd (List.cons.inj heq).1 hlower
        · split
          · rename_i heq
            exact absurd (List.cons.inj heq).1 hc
          · rfl

theorem readGroups_toLower (n : Nat) (text : List Char) :
    readGroups n (text.map Char.toLower) =
      (readGroups n text).map fun (groups, rest) => (groups, rest.map Char.toLower) := by
  induction n generalizing text with
  | zero => rfl
  | succ n ih =>
      match text with
      | a :: b :: c :: d :: rest =>
          have hnext : (if n = 0 then rest.map Char.toLower else
              dropHyphen (rest.map Char.toLower)) =
              (if n = 0 then rest else dropHyphen rest).map Char.toLower := by
            split
            · rfl
            · exact dropHyphen_toLower rest
          have hgroup : readGroup a.toLower b.toLower c.toLower d.toLower = readGroup a b c d := by
            simp only [readGroup, toLower_toLower]
          simp only [List.map_cons, readGroups, hgroup, hnext, ih]
          cases readGroup a b c d with
          | none => rfl
          | some group =>
              cases readGroups n (if n = 0 then rest else dropHyphen rest) <;> rfl
      | [] | [_] | [_, _] | [_, _, _] => rfl

theorem readClosed_toLower {close : List Char} (hclose : close = [] ∨ close = ['}'])
    (text : List Char) : readClosed close (text.map Char.toLower) = readClosed close text := by
  have hrest : ∀ rest : List Char, rest.map Char.toLower = close ↔ rest = close := by
    rcases hclose with rfl | rfl
    · intro rest
      exact List.map_eq_nil_iff
    · intro rest
      have hbrace : ∀ c : Char, c.toLower = '}' ↔ c = '}' := fun _ => toLower_eq_mark (by decide)
      simp only [List.map_eq_singleton_iff, hbrace, exists_eq_right]
  rw [readClosed, readClosed, readGroups_toLower]
  cases readGroups 8 text with
  | none => rfl
  | some read => simp only [Option.map_some, Option.bind_some, hrest]

/-- A uuid is read alike in either case. -/
theorem readUuid_toLower (text : String) :
    readUuid (String.ofList (text.toList.map Char.toLower)) = readUuid text := by
  unfold readUuid
  rw [String.toList_ofList]
  cases text.toList with
  | nil => rfl
  | cons c rest =>
      by_cases hc : c = '{'
      · subst hc
        exact readClosed_toLower (Or.inr rfl) rest
      · have hlower : c.toLower ≠ '{' := fun h => hc ((toLower_eq_mark (by decide)).mp h)
        have hread : ∀ (first : Char) (later : List Char), first ≠ '{' →
            (match first :: later with
              | '{' :: rest => readClosed ['}'] rest
              | rest => readClosed [] rest) = readClosed [] (first :: later) := by
          intro first later hne
          split
          · rename_i heq
            exact absurd (List.cons.inj heq).1 hne
          · rfl
        rw [List.map_cons, hread _ _ hlower, hread _ _ hc, ← List.map_cons]
        exact readClosed_toLower (Or.inl rfl) (c :: rest)

/-- The canonical text of a uuid is one, and that of no other text is. -/
@[simp] theorem isUuid_pgUuid (text : String) : IsUuid (pgUuid text) ↔ IsUuid text := by
  unfold IsUuid pgUuid
  cases hread : readUuid text with
  | some groups =>
      dsimp only
      rw [readUuid_printGroups (length_of_readUuid hread)]
  | none =>
      dsimp only
      rw [readUuid_toLower, hread]

@[simp] theorem pgUuid_pgUuid (text : String) : pgUuid (pgUuid text) = pgUuid text := by
  cases hread : readUuid text with
  | some groups =>
      simp only [pgUuid, hread, readUuid_printGroups (length_of_readUuid hread)]
  | none =>
      have hlower : Char.toLower ∘ Char.toLower = Char.toLower := funext toLower_toLower
      simp only [pgUuid, hread, readUuid_toLower, String.toList_ofList, List.map_map, hlower]

/-! ### The characters of a uuid -/

theorem mem_of_readGroup {a b c d x : Char} {group : HexGroup}
    (h : readGroup a b c d = some group) (hx : x ∈ [a, b, c, d]) :
    x.toLower ∈ lowerHexDigits := by
  unfold readGroup at h
  split at h
  · rename_i hdigits
    exact hdigits x.toLower (List.mem_map_of_mem (f := Char.toLower) hx)
  · cases h

theorem mem_dropHyphen {x : Char} {text : List Char} (h : x ∈ text) :
    x = '-' ∨ x ∈ dropHyphen text := by
  unfold dropHyphen
  split
  · exact List.mem_cons.mp h
  · exact Or.inr h

/-- The characters that are read are digits and hyphens. -/
theorem mem_of_readGroups {n : Nat} {text rest : List Char} {groups : List HexGroup}
    (h : readGroups n text = some (groups, rest)) :
    ∀ x ∈ text, x.toLower ∈ lowerHexDigits ∨ x = '-' ∨ x ∈ rest := by
  induction n generalizing text groups with
  | zero =>
      cases h
      exact fun x hx => Or.inr (Or.inr hx)
  | succ n ih =>
      match text with
      | a :: b :: c :: d :: text =>
          obtain ⟨group, hgroup, h⟩ := Option.bind_eq_some_iff.mp h
          obtain ⟨⟨later, rest⟩, hlater, heq⟩ := Option.map_eq_some_iff.mp h
          cases heq
          intro x hx
          rcases List.mem_append.mp (show x ∈ [a, b, c, d] ++ text from hx) with hfour | hin
          · exact Or.inl (mem_of_readGroup hgroup hfour)
          · split at hlater
            · exact ih hlater x hin
            · rcases mem_dropHyphen hin with hhyphen | hin
              · exact Or.inr (Or.inl hhyphen)
              · exact ih hlater x hin
      | [] | [_] | [_, _] | [_, _, _] => cases h

/-- The text of a uuid has no colon. -/
theorem colon_not_mem {text : String} (h : IsUuid text) : ':' ∉ text.toList := by
  have hclosed : ∀ {close chars : List Char} {groups : List HexGroup}, ':' ∉ close →
      readClosed close chars = some groups → ':' ∉ chars := by
    intro close chars groups hclose hread hcolon
    rcases mem_of_readGroups (readGroups_of_readClosed hread) ':' hcolon with
      hdigit | hhyphen | hin
    · exact absurd hdigit (by decide)
    · exact absurd hhyphen (by decide)
    · exact hclose hin
  obtain ⟨groups, hread⟩ := Option.isSome_iff_exists.mp h
  unfold readUuid at hread
  split at hread
  · rename_i rest heq
    rw [heq]
    intro hcolon
    rcases List.mem_cons.mp hcolon with hbrace | hin
    · exact absurd hbrace (by decide)
    · exact hclosed (by decide) hread hin
  · exact hclosed List.not_mem_nil hread

/-! ### Two uuids -/

def sampleUuid : String := "9b2f4c1e-7d35-4e0a-8c61-5a3d2f7e8b90"

def otherUuid : String := "1c0d7a52-3b48-4f19-b6e4-08f2a95d6e37"

end RulesEngine.Foundations
