import DistinctCount.Json.Parser
import DistinctCount.Json.Printer
import Mathlib.Data.List.Forall2
import Mathlib.Data.Option.Basic

namespace DistinctCount.Json

variable {cs rest text : List Char} {texts : List (List Char)} {v : Json} {vs : List Json}
  {ps : List Piece} {fuel n : Nat} {c : Char}

theorem toNat_of_isDigit (h : c.isDigit = true) : 48 ≤ c.toNat ∧ c.toNat ≤ 57 := by
  simp only [Char.isDigit, Bool.and_eq_true, decide_eq_true_eq, UInt32.le_iff_toNat_le] at h
  exact h

theorem isDigit_of_mem_digits (h : c ∈ digits n) : c.isDigit = true :=
  Nat.isDigit_of_mem_toDigits (by decide) (by decide) h

theorem valueOf_digits (n : Nat) : valueOf (digits n) = n := by
  have h := @Nat.ofDigitChars_ten_toDigits n
  rw [Nat.ofDigitChars_eq_foldl] at h
  simpa only [valueOf, digits, Nat.mul_comm 10] using h

/-- Only the number 0 is written with a leading 0. -/
theorem digits_eq_zero_cons (h : digits n = '0' :: cs) : n = 0 ∧ cs = [] := by
  induction n using Nat.strongRecOn generalizing cs with
  | ind n ih =>
    unfold digits at h ih
    rw [Nat.toDigits_eq_if (by decide)] at h
    split at h
    · rename_i hn
      obtain ⟨hc, rfl⟩ := List.cons.inj h
      have hz : ∀ m < 10, Nat.digitChar m = '0' → m = 0 := by decide
      exact ⟨hz n hn hc, rfl⟩
    · rename_i hn
      cases hd : Nat.toDigits 10 (n / 10) with
      | nil => exact absurd hd Nat.toDigits_ne_nil
      | cons d ds =>
        rw [hd, List.cons_append] at h
        obtain ⟨rfl, -⟩ := List.cons.inj h
        have hz := (ih (n / 10) (by omega) hd).1
        omega

/-- A text that does not lengthen a number before it. -/
def Ends (rest : List Char) : Prop :=
  ∀ c cs, rest = c :: cs → c.isDigit = false ∧ c ≠ '.' ∧ c ≠ 'e' ∧ c ≠ 'E'

theorem ends_nil : Ends [] := nofun

theorem ends_comma : Ends (',' :: rest) := by
  rintro c cs ⟨⟩
  decide

theorem ends_bracket : Ends (']' :: rest) := by
  rintro c cs ⟨⟩
  decide

theorem takeWhile_append_ends (hd : ∀ c ∈ cs, c.isDigit = true) (hr : Ends rest) :
    (cs ++ rest).takeWhile Char.isDigit = cs ∧ (cs ++ rest).dropWhile Char.isDigit = rest := by
  induction cs with
  | nil =>
    cases rest with
    | nil => exact ⟨rfl, rfl⟩
    | cons c rest => simp [(hr c rest rfl).1]
  | cons c cs ih =>
    have hc := hd c List.mem_cons_self
    simpa [hc] using ih fun x hx => hd x (List.mem_cons_of_mem _ hx)

theorem readWhole_digits (hr : Ends rest) : readWhole (digits n ++ rest) = some (digits n, rest) := by
  have hne : digits n ≠ [] := Nat.toDigits_ne_nil
  have hall := takeWhile_append_ends (fun c => isDigit_of_mem_digits (n := n)) hr
  unfold readWhole
  split
  · rename_i tail heq
    cases hd : digits n with
    | nil => exact absurd hd hne
    | cons d ds =>
      rw [hd, List.cons_append] at heq
      obtain ⟨rfl, rfl⟩ := List.cons.inj heq
      obtain ⟨-, rfl⟩ := digits_eq_zero_cons hd
      rfl
  · rw [hall.1, hall.2]
    simp [hne]

theorem readFraction_of_ends (hr : Ends rest) : readFraction rest = some ([], rest) := by
  unfold readFraction
  split
  · exact absurd rfl (hr _ _ rfl).2.1
  · rfl

theorem readExponent_of_ends (hr : Ends rest) : readExponent rest = some ([], rest) := by
  unfold readExponent
  split
  · rename_i e cs
    obtain ⟨-, -, hlow, hhigh⟩ := hr e cs rfl
    simp [hlow, hhigh]
  · rfl

theorem readNumber_digits (hr : Ends rest) :
    readNumber (digits n ++ rest) = some (.natural n, rest) := by
  have hsign : (digits n ++ rest).takeWhile (· == '-') = [] := by
    cases hd : digits n with
    | nil => exact absurd hd Nat.toDigits_ne_nil
    | cons d ds =>
      have hdigit := toNat_of_isDigit (isDigit_of_mem_digits (n := n) (hd ▸ List.mem_cons_self))
      have hne : d ≠ '-' := by
        rintro rfl
        exact absurd hdigit (by decide)
      simp [hne]
  simp [readNumber, hsign, readWhole_digits hr, readFraction_of_ends hr, readExponent_of_ends hr,
    valueOf_digits]

/-! ### Strings -/

theorem digit?_digitChar : ∀ m < 16, Text.Hex.digit? (Nat.digitChar m) = some m := by
  decide

theorem codeUnit?_of_lt (h : n < 0x20) :
    codeUnit? '0' '0' (Nat.digitChar (n / 16)) (Nat.digitChar (n % 16)) = some n := by
  have hz : Text.Hex.digit? '0' = some 0 := rfl
  have hhigh := digit?_digitChar (n / 16) (by omega)
  have hlow := digit?_digitChar (n % 16) (by omega)
  simp only [codeUnit?, hz, hhigh, hlow, Option.bind_eq_bind, Option.bind_some, Option.pure_def]
  congr 1
  omega

theorem textOf_char (c : Char) (ps : List Piece) :
    textOf (.char c :: ps) = (textOf ps).map (c :: ·) := by
  rw [textOf]

theorem textOf_control (h : c.toNat < 0x20) (ps : List Piece) :
    textOf (.unit c.toNat :: ps) = (textOf ps).map (c :: ·) := by
  have hlead : isLeading c.toNat = false := by simp [isLeading]; omega
  have htrail : isTrailing c.toNat = false := by simp [isTrailing]; omega
  cases ps with
  | nil => simp [textOf, hlead, htrail]
  | cons p ps => cases p <;> simp [textOf, hlead, htrail]

theorem readPieces_short {e : Char} (h : shortEscape? e = some c) (cs : List Char) :
    readPieces ('\\' :: e :: cs) = (readPieces cs).map fun r => (.char c :: r.1, r.2) := by
  rw [readPieces]
  · rw [h]
    cases readPieces cs <;> rfl
  · rintro _ _ _ _ _ rfl -
    exact absurd h nofun

/-- A written character is one piece, which stands for that character. -/
theorem exists_piece_escape (c : Char) : ∃ p,
    (∀ cs, readPieces (escape c ++ cs) = (readPieces cs).map fun r => (p :: r.1, r.2)) ∧
    ∀ ps, textOf (p :: ps) = (textOf ps).map (c :: ·) := by
  unfold escape
  split
  case h_8 hquote hback _ _ _ _ _ =>
    split
    · rename_i hlow
      refine ⟨.unit c.toNat, fun cs => ?_, textOf_control hlow⟩
      simp only [List.cons_append, List.nil_append, readPieces, codeUnit?_of_lt hlow]
      cases readPieces cs <;> rfl
    · rename_i hlow
      refine ⟨.char c, fun cs => ?_, textOf_char c⟩
      rw [List.singleton_append, readPieces]
      · rw [guard, if_pos (Nat.not_lt.1 hlow)]
        cases readPieces cs <;> rfl
      · exact hquote
      · rintro _ _ _ _ _ rfl
        exact absurd rfl hback
      · rintro _ _ rfl
        exact absurd rfl hback
  all_goals exact ⟨.char _, readPieces_short rfl, textOf_char _⟩

theorem readPieces_flatMap_escape (cs rest : List Char) :
    ∃ ps, readPieces (cs.flatMap escape ++ '"' :: rest) = some (ps, rest) ∧ textOf ps = some cs := by
  induction cs with
  | nil => exact ⟨[], rfl, rfl⟩
  | cons c cs ih =>
    obtain ⟨ps, hread, htext⟩ := ih
    obtain ⟨p, hp, hc⟩ := exists_piece_escape c
    refine ⟨p :: ps, ?_, ?_⟩
    · rw [List.flatMap_cons, List.append_assoc, hp, hread]
      rfl
    · rw [hc, htext]
      rfl

/-! ### Values -/

/-- A written value reads back before whatever ends it, with a step for each of its characters. -/
def Reads (text : List Char) (v : Json) : Prop :=
  ∀ fuel rest, text.length ≤ fuel → Ends rest → readValue fuel (text ++ rest) = some (v, rest)

theorem reads_literal (s : String) : Reads (literal s) (.string (some s)) := by
  intro fuel rest hf hr
  obtain ⟨ps, hread, htext⟩ := readPieces_flatMap_escape s.toList rest
  cases fuel with
  | zero => simp [literal] at hf
  | succ fuel =>
    have hs : skipBlank (literal s ++ rest) = '"' :: (s.toList.flatMap escape ++ '"' :: rest) := by
      simp [literal, skipBlank, isBlank]
    rw [readValue, hs]
    simp [readString, hread, htext]

theorem skipBlank_of_isDigit (h : c.isDigit = true) : skipBlank (c :: cs) = c :: cs := by
  have hblank : ¬ isBlank c := by
    simp only [isBlank, Bool.or_eq_true, beq_iff_eq]
    rintro (((rfl | rfl) | rfl) | rfl) <;> exact absurd h (by decide)
  simp [skipBlank, hblank]

theorem readValue_of_isDigit (h : c.isDigit = true) :
    readValue (fuel + 1) (c :: cs) = readNumber (c :: cs) := by
  rw [readValue, skipBlank_of_isDigit h]
  split
  case h_7 => rfl
  all_goals
    rename_i heq
    obtain ⟨rfl, -⟩ := List.cons.inj heq
    exact absurd h (by decide)

theorem reads_digits (n : Nat) : Reads (digits n) (.natural n) := by
  intro fuel rest hf hr
  have hnum := readNumber_digits (n := n) hr
  cases hd : digits n with
  | nil => exact absurd hd Nat.toDigits_ne_nil
  | cons d ds =>
    have hdigit : d.isDigit = true := isDigit_of_mem_digits (n := n) (hd ▸ List.mem_cons_self)
    rw [hd] at hf hnum
    obtain ⟨fuel, rfl⟩ := Nat.exists_eq_add_of_le' (Nat.le_trans (Nat.le_add_left 1 _) hf)
    exact (readValue_of_isDigit hdigit).trans hnum

theorem readValue_bracket (h : skipBlank cs = ']' :: rest) : readValue fuel cs = none := by
  cases fuel with
  | zero => rw [readValue]
  | succ fuel =>
    rw [readValue, h]
    simp [readNumber, readWhole, Char.isDigit]

theorem readItems_bracket (h : skipBlank cs = ']' :: rest) : readItems fuel cs = none := by
  cases fuel with
  | zero => rw [readItems]
  | succ fuel =>
    rw [readItems, readValue_bracket h]
    rfl

theorem readItems_last (h : readValue fuel cs = some (v, ']' :: rest)) :
    readItems (fuel + 1) cs = some ([v], rest) := by
  rw [readItems, h]
  rfl

theorem readItems_more (h : readValue fuel cs = some (v, ',' :: rest)) :
    readItems (fuel + 1) cs = (readItems fuel rest).map fun r => (v :: r.1, r.2) := by
  have hskip : skipBlank (',' :: rest) = ',' :: rest := rfl
  rw [readItems, h]
  simp only [Option.bind_eq_bind, Option.bind_some, hskip]
  cases readItems fuel rest <;> rfl

theorem readItems_intercalate (h : List.Forall₂ Reads (text :: texts) (v :: vs))
    (hf : ([','].intercalate (text :: texts)).length ≤ fuel) (rest : List Char) :
    readItems (fuel + 1) ([','].intercalate (text :: texts) ++ ']' :: rest) =
      some (v :: vs, rest) := by
  induction texts generalizing text v vs fuel with
  | nil =>
    obtain ⟨hread, htail⟩ := List.forall₂_cons.1 h
    obtain rfl := List.forall₂_nil_left_iff.1 htail
    rw [List.intercalate_singleton] at hf ⊢
    exact readItems_last (hread fuel _ hf ends_bracket)
  | cons text' texts ih =>
    obtain ⟨hread, htail⟩ := List.forall₂_cons.1 h
    cases vs with
    | nil => exact absurd htail nofun
    | cons v' vs =>
      rw [List.intercalate_cons_cons] at hf ⊢
      simp only [List.length_append, List.length_singleton] at hf
      simp only [List.append_assoc, List.cons_append, List.nil_append]
      obtain ⟨fuel, rfl⟩ := Nat.exists_eq_add_of_le' (show 1 ≤ fuel by omega)
      rw [readItems_more (hread _ _ (by omega) ends_comma), ih htail (by omega)]
      rfl

theorem readValue_items (h : readItems fuel cs = some (vs, rest)) :
    readValue (fuel + 1) ('[' :: cs) = some (.array vs, rest) := by
  have hskip : skipBlank ('[' :: cs) = '[' :: cs := rfl
  simp only [readValue, hskip]
  split
  · rename_i hclose
    rw [readItems_bracket hclose] at h
    cases h
  · rw [h]
    rfl

theorem reads_bracket (h : List.Forall₂ Reads texts vs) : Reads (bracket texts) (.array vs) := by
  intro fuel rest hf hr
  have happend : bracket texts ++ rest = '[' :: ([','].intercalate texts ++ ']' :: rest) := by
    simp [bracket]
  have hlength : (bracket texts).length = ([','].intercalate texts).length + 2 := by
    simp [bracket]
  obtain ⟨fuel, rfl⟩ := Nat.exists_eq_add_of_le' (show 2 ≤ fuel by omega)
  rw [happend]
  cases h with
  | nil =>
    rw [readValue]
    rfl
  | cons hread htail =>
    exact readValue_items (readItems_intercalate (.cons hread htail) (by omega) rest)

/-- A written value is read as the whole text. -/
theorem Reads.readText (h : Reads text v) : readText (String.ofList text) = some (v, true) := by
  have hread := h (2 * text.length + 2) [] (by omega) ends_nil
  rw [List.append_nil] at hread
  simp [Json.readText, hread, skipBlank]

end DistinctCount.Json
