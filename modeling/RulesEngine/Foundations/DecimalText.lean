import RulesEngine.Foundations.Calendar

/-!
# Decimal texts and separators

Numbers are written without a sign here, some of them padded to a width, and
joined by separators that are no digits.  A written number can be read back
(`ofDigitChars_padded`), and so can the parts of a joined text
(`split_at_separator`) and an instant from its ISO text (`toISOString_inj`).
-/

namespace RulesEngine.Foundations

/-! ### Separators -/

/-- The part before the first separator and the part after it are determined by
    the joined text. -/
theorem split_at_separator {c : Char} {a b rest rest' : List Char} (ha : c ∉ a) (hb : c ∉ b)
    (h : a ++ c :: rest = b ++ c :: rest') : a = b ∧ rest = rest' := by
  induction a generalizing b with
  | nil =>
      cases b with
      | nil => exact ⟨rfl, (List.cons.inj h).2⟩
      | cons d b =>
          have hcd : c = d := (List.cons.inj h).1
          exact absurd (hcd ▸ List.mem_cons_self) hb
  | cons d a ih =>
      cases b with
      | nil =>
          have hdc : d = c := (List.cons.inj h).1
          exact absurd (hdc ▸ List.mem_cons_self) ha
      | cons e b =>
          obtain ⟨rfl, htail⟩ := List.cons.inj h
          obtain ⟨rfl, hrest⟩ := ih (fun hmem => ha (List.mem_cons_of_mem _ hmem))
            (fun hmem => hb (List.mem_cons_of_mem _ hmem)) htail
          exact ⟨rfl, hrest⟩

/-- A text in two parts, with the separator in the second and the mark in the
    first only. -/
def Marked (c d : Char) (text : List Char) : Prop :=
  ∃ first second, text = first ++ second ∧ c ∉ first ∧ d ∈ first ∧ d ∉ second

/-- No mark follows a separator of a marked text. -/
theorem Marked.not_mem_after {c d : Char} {text before after : List Char} (h : Marked c d text)
    (hsplit : text = before ++ c :: after) : d ∉ after := by
  obtain ⟨first, second, rfl, hfirst, -, hsecond⟩ := h
  rcases List.append_eq_append_iff.mp hsplit with ⟨middle, rfl, rfl⟩ | ⟨middle, rfl, hmiddle⟩
  · intro hmem
    exact hsecond (List.mem_append_right _ (List.mem_cons_of_mem _ hmem))
  · cases middle with
    | nil =>
        rw [List.nil_append] at hmiddle
        exact fun hmem => hsecond (hmiddle ▸ List.mem_cons_of_mem _ hmem)
    | cons e middle =>
        obtain ⟨rfl, -⟩ := List.cons.inj hmiddle
        exact absurd (List.mem_append_right _ List.mem_cons_self) hfirst

theorem Marked.mem {c d : Char} {text : List Char} (h : Marked c d text) : d ∈ text := by
  obtain ⟨first, second, rfl, -, hmem, -⟩ := h
  exact List.mem_append_left _ hmem

/-- A marked text can be taken off the end, whatever stands before it. -/
theorem Marked.split {c d : Char} {a b text text' : List Char} (ht : Marked c d text)
    (ht' : Marked c d text') (h : a ++ c :: text = b ++ c :: text') : a = b ∧ text = text' := by
  rcases List.append_eq_append_iff.mp h with ⟨middle, rfl, hmiddle⟩ | ⟨middle, rfl, hmiddle⟩
  · cases middle with
    | nil => exact ⟨(List.append_nil a).symm, (List.cons.inj hmiddle).2⟩
    | cons e middle => exact absurd ht'.mem (ht.not_mem_after (List.cons.inj hmiddle).2)
  · cases middle with
    | nil => exact ⟨List.append_nil b, (List.cons.inj hmiddle).2.symm⟩
    | cons e middle => exact absurd ht.mem (ht'.not_mem_after (List.cons.inj hmiddle).2)

/-! ### Numbers -/

theorem toList_toString {n : Int} (hn : 0 ≤ n) :
    (toString n).toList = Nat.toDigits 10 n.toNat := by
  obtain ⟨m, rfl⟩ := Int.eq_ofNat_of_zero_le hn
  exact Nat.toList_repr

theorem toList_padded (width : Nat) {n : Int} (hn : 0 ≤ n) :
    (JsDate.padded width n).toList =
      List.replicate (width - (Nat.toDigits 10 n.toNat).length) '0' ++
        Nat.toDigits 10 n.toNat := by
  simp only [JsDate.padded, toList_toString hn, String.toList_ofList, List.leftpad]

/-- A padded number is read back. -/
theorem ofDigitChars_padded (width : Nat) {n : Int} (hn : 0 ≤ n) :
    Nat.ofDigitChars 10 (JsDate.padded width n).toList 0 = n.toNat := by
  rw [toList_padded width hn, Nat.ofDigitChars_append]
  simp

theorem padded_inj {width : Nat} {m n : Int} (hm : 0 ≤ m) (hn : 0 ≤ n)
    (h : (JsDate.padded width m).toList = (JsDate.padded width n).toList) : m = n := by
  have hread := congrArg (fun text => Nat.ofDigitChars 10 text 0) h
  simp only [ofDigitChars_padded width hm, ofDigitChars_padded width hn] at hread
  omega

theorem toString_inj {m n : Int} (hm : 0 ≤ m) (hn : 0 ≤ n)
    (h : (toString m).toList = (toString n).toList) : m = n := by
  rw [toList_toString hm, toList_toString hn] at h
  have hread := congrArg (fun text => Nat.ofDigitChars 10 text 0) h
  simp only [Nat.ofDigitChars_ten_toDigits] at hread
  omega

theorem isDigit_of_mem_toString {n : Int} (hn : 0 ≤ n) {c : Char}
    (hc : c ∈ (toString n).toList) : c.isDigit = true := by
  rw [toList_toString hn] at hc
  exact Nat.isDigit_of_mem_toDigits (by decide) (by decide) hc

theorem isDigit_of_mem_padded {width : Nat} {n : Int} (hn : 0 ≤ n) {c : Char}
    (hc : c ∈ (JsDate.padded width n).toList) : c.isDigit = true := by
  rw [toList_padded width hn] at hc
  rcases List.mem_append.mp hc with hzero | hdigit
  · rw [List.eq_of_mem_replicate hzero]
    rfl
  · exact Nat.isDigit_of_mem_toDigits (by decide) (by decide) hdigit

/-- No separator occurs in a number. -/
theorem not_mem_toString {c : Char} (hc : c.isDigit = false) {n : Int} (hn : 0 ≤ n) :
    c ∉ (toString n).toList := by
  intro hmem
  exact absurd (isDigit_of_mem_toString hn hmem) (by simp [hc])

theorem not_mem_padded {c : Char} (hc : c.isDigit = false) {width : Nat} {n : Int} (hn : 0 ≤ n) :
    c ∉ (JsDate.padded width n).toList := by
  intro hmem
  exact absurd (isDigit_of_mem_padded hn hmem) (by simp [hc])

/-- A number, negative or not, has no separator but the sign. -/
theorem not_mem_number {c : Char} (hc : c.isDigit = false) (hsign : c ≠ '-') (n : Int) :
    c ∉ (toString n).toList := by
  cases n with
  | ofNat m => exact not_mem_toString hc (Int.natCast_nonneg m)
  | negSucc m =>
      have hmagnitude : c ∉ (toString ((m + 1 : Nat) : Int)).toList :=
        not_mem_toString hc (Int.natCast_nonneg _)
      have htext : (toString (Int.negSucc m)).toList =
          '-' :: (toString ((m + 1 : Nat) : Int)).toList := by
        change ("-" ++ Nat.repr (m + 1)).toList = _
        rw [String.toList_append]
        rfl
      rw [htext, List.mem_cons, not_or]
      exact ⟨hsign, hmagnitude⟩

theorem not_mem_padded_number {c : Char} (hc : c.isDigit = false) (hsign : c ≠ '-') (width : Nat)
    (n : Int) : c ∉ (JsDate.padded width n).toList := by
  simp only [JsDate.padded, String.toList_ofList, List.leftpad]
  intro hmem
  rcases List.mem_append.mp hmem with hzero | hnumber
  · rw [List.eq_of_mem_replicate hzero] at hc
    exact absurd hc (by decide)
  · exact not_mem_number hc hsign n hnumber

/-! ### ISO texts -/

/-- The ISO text of a date with a four-digit year, part by part. -/
theorem toList_isoText {t : Int} (hlow : 0 ≤ JsDate.fullYear t) (hhigh : JsDate.fullYear t ≤ 9999)
    {text : String} (h : JsDate.toISOString (some t) = some text) :
    text.toList =
      (JsDate.padded 4 (JsDate.fullYear t)).toList ++ '-' ::
        ((JsDate.padded 2 (JsDate.month t + 1)).toList ++ '-' ::
          ((JsDate.padded 2 (JsDate.dayOfMonth t)).toList ++ 'T' ::
            ((JsDate.padded 2 (JsDate.timeWithinDay t / JsDate.msPerHour)).toList ++ ':' ::
              ((JsDate.padded 2 (JsDate.timeWithinDay t / 60000 % 60)).toList ++ ':' ::
                ((JsDate.padded 2 (JsDate.timeWithinDay t / 1000 % 60)).toList ++ '.' ::
                  ((JsDate.padded 3 (JsDate.timeWithinDay t % 1000)).toList ++ ['Z'])))))) := by
  simp only [JsDate.toISOString, JsDate.isoYear, hlow, hhigh, and_self, if_true,
    Option.some.injEq] at h
  subst h
  simp

/-- Different instants have different ISO texts. -/
theorem toISOString_inj {t u : Int} (ht : 0 ≤ JsDate.fullYear t) (ht' : JsDate.fullYear t ≤ 9999)
    (hu : 0 ≤ JsDate.fullYear u) (hu' : JsDate.fullYear u ≤ 9999)
    (h : JsDate.toISOString (some t) = JsDate.toISOString (some u)) : t = u := by
  have htime : ∀ t, 0 ≤ JsDate.timeWithinDay t := by
    intro t
    simp only [JsDate.timeWithinDay, JsDate.msPerDay]
    omega
  have hparts : ∀ t, 0 ≤ (JsDate.month t : Int) + 1 ∧ 0 ≤ JsDate.dayOfMonth t ∧
      0 ≤ JsDate.timeWithinDay t / JsDate.msPerHour ∧ 0 ≤ JsDate.timeWithinDay t / 60000 % 60 ∧
      0 ≤ JsDate.timeWithinDay t / 1000 % 60 ∧ 0 ≤ JsDate.timeWithinDay t % 1000 := by
    intro t
    have hday := JsDate.dayOfMonth_pos t
    have hnonneg := htime t
    simp only [JsDate.msPerHour]
    omega
  obtain ⟨hm, hd, hh, hmin, hs, hms⟩ := hparts t
  obtain ⟨hm', hd', hh', hmin', hs', hms'⟩ := hparts u
  obtain ⟨text, htext⟩ : ∃ text, JsDate.toISOString (some t) = some text := ⟨_, rfl⟩
  have hlist := (toList_isoText ht ht' htext).symm.trans
    (toList_isoText hu hu' (h.symm.trans htext))
  obtain ⟨hyear, hlist⟩ := split_at_separator (not_mem_padded rfl ht) (not_mem_padded rfl hu) hlist
  obtain ⟨hmonth, hlist⟩ :=
    split_at_separator (not_mem_padded rfl hm) (not_mem_padded rfl hm') hlist
  obtain ⟨hday, hlist⟩ := split_at_separator (not_mem_padded rfl hd) (not_mem_padded rfl hd') hlist
  obtain ⟨hhour, hlist⟩ := split_at_separator (not_mem_padded rfl hh) (not_mem_padded rfl hh') hlist
  obtain ⟨hminute, hlist⟩ :=
    split_at_separator (not_mem_padded rfl hmin) (not_mem_padded rfl hmin') hlist
  obtain ⟨hsecond, hlist⟩ :=
    split_at_separator (not_mem_padded rfl hs) (not_mem_padded rfl hs') hlist
  obtain ⟨hmilli, -⟩ := split_at_separator (not_mem_padded rfl hms) (not_mem_padded rfl hms') hlist
  have hmonth' := padded_inj hm hm' hmonth
  have hsameDay :=
    JsDate.day_eq_of_date (padded_inj ht hu hyear) (by omega) (padded_inj hd hd' hday)
  have hhour' := padded_inj hh hh' hhour
  have hminute' := padded_inj hmin hmin' hminute
  have hsecond' := padded_inj hs hs' hsecond
  have hmilli' := padded_inj hms hms' hmilli
  simp only [JsDate.day, JsDate.timeWithinDay, JsDate.msPerDay, JsDate.msPerHour] at *
  omega

end RulesEngine.Foundations
