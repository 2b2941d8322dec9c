import Mathlib.Data.List.TakeWhile
import RecordQuery.Calendar.Reading
import RecordQuery.Proofs.Text.Digits

/-!
# Laws of readers

A reader takes parts of a text from the left, and there are two things to know of it. What it takes
does not depend on what comes after, as long as nothing there could belong to a number: then it is
*stable*, and so are its parts put together. And it reads what is written for it: for a number of
limited width these are the numerals that are not too long. So reading a text that is put together
comes down to reading each of its parts alone.

The reader of fractions is not stable, since it succeeds without taking anything. It is always the
last one.

## Forms

The forms of date-times are each the beginning of the next longer one. A text of a form is one that
the form takes whole, with the parts of an existing date and time.

## Main results

* `Reader.run_bind_eq_ok_iff`: a reader of two parts reads one after the other
* `Reader.Stable.bind`, `Reader.stable_form`: what is read does not depend on what comes after
* `Reader.form_hourMinuteSecond`, `Reader.form_time`: how the forms go on
* `Reader.run_field_numeral`, `Reader.run_year_numeral`, `Reader.run_year_signed`: numerals are read
  as their numbers
* `Date.ofText_eq_ok_iff`, `DateTime.ofForm_eq_ok_iff`: what is read whole
-/

namespace RecordQuery.Reader

variable {α β : Type}

/-! ## Parts in a row -/

/-- A reader of two parts reads one after the other. -/
theorem run_bind_eq_ok_iff {r : Reader α} {f : α → Reader β} {t rest : Text} {b : β} :
    (r >>= f).run t = .ok (b, rest) ↔
      ∃ a mid, r.run t = .ok (a, mid) ∧ (f a).run mid = .ok (b, rest) := by
  rw [StateT.run_bind]
  cases r.run t with
  | error e => simp [bind, Except.bind]
  | ok p => obtain ⟨a, mid⟩ := p; simp [bind, Except.bind]

theorem run_bind_of_eq_ok {r : Reader α} {t mid : Text} {a : α} (h : r.run t = .ok (a, mid))
    (f : α → Reader β) : (r >>= f).run t = (f a).run mid := by
  rw [StateT.run_bind, h]
  rfl

theorem run_mark (c : Char) (t : Text) : (mark c).run (c :: t) = .ok ((), t) := by
  simp [mark, StateT.run]

theorem whole_eq_ok_iff {r : Reader α} {t : Text} {a : α} :
    r.whole t = .ok a ↔ r.run t = .ok (a, []) := by
  unfold whole
  cases r.run t with
  | error e => simp [bind, Except.bind]
  | ok p =>
    obtain ⟨b, rest⟩ := p
    cases rest <;> simp [bind, Except.bind, pure, Except.pure, throw, throwThe, MonadExceptOf.throw]

/-! ## What comes after -/

/-- A text that does not carry on a number in front of it: it begins with no digit and no blank. -/
def Stops (u : Text) : Prop := ∀ c ∈ u.head?, c.isDigit = false ∧ isBlank c = false

theorem stops_nil : Stops [] := by simp [Stops]

theorem Stops.take {u : Text} (h : Stops u) (n : Nat) : Stops (u.take n) := by
  cases n with
  | zero => exact stops_nil
  | succ n => rwa [Stops, List.head?_take, if_neg (Nat.succ_ne_zero n)]

theorem takeWhile_isDigit_append (t : Text) {u : Text} (h : Stops u) :
    (t ++ u).takeWhile Char.isDigit = t.takeWhile Char.isDigit := by
  have hu : u.takeWhile Char.isDigit = [] := by
    cases u with
    | nil => rfl
    | cons c u => simp [(h c rfl).1]
  rw [List.takeWhile_append, hu]
  split
  · next heq =>
    rw [List.append_nil]
    exact ((List.takeWhile_prefix _).eq_of_length heq).symm
  · rfl

theorem trimStart_append_of_stops (t : Text) {u : Text} (h : Stops u) :
    Text.trimStart (t ++ u) = Text.trimStart t ++ u := by
  by_cases ht : Text.trimStart t = []
  · rw [ht, Text.trimStart_append (Text.trimStart_eq_nil_iff.1 ht)]
    exact Text.trimStart_eq_self_iff.2 fun c hc => (h c hc).2
  · exact Text.trimStart_append_of_trimStart_ne_nil ht u

/-- A reader takes the same from a longer text, if what is added could not belong to a number. -/
def Stable (r : Reader α) : Prop :=
  ∀ (t rest : Text) (a : α), r.run t = .ok (a, rest) →
    ∀ u : Text, Stops u → r.run (t ++ u) = .ok (a, rest ++ u)

namespace Stable

theorem pure (a : α) : Stable (Pure.pure a) := by
  intro t rest b h u _
  cases h
  rfl

theorem throw (e : CalendarError) : Stable (MonadExcept.throw e : Reader α) := by
  intro t rest b h u _
  cases h

theorem bind {r : Reader α} {f : α → Reader β} (hr : Stable r) (hf : ∀ a, Stable (f a)) :
    Stable (r >>= f) := by
  intro t rest b h u hu
  obtain ⟨a, mid, ha, hb⟩ := run_bind_eq_ok_iff.1 h
  exact run_bind_eq_ok_iff.2 ⟨a, mid ++ u, hr t mid a ha u hu, hf a mid rest b hb u hu⟩

theorem ite {c : Prop} [Decidable c] {r s : Reader α} (hr : Stable r) (hs : Stable s) :
    Stable (if c then r else s) := by
  split
  · exact hr
  · exact hs

end Stable

theorem stable_blanks : Stable blanks := by
  intro t rest a h u hu
  cases h
  exact congrArg (fun v => Except.ok ((), v)) (trimStart_append_of_stops t hu)

theorem stable_mark (c : Char) : Stable (mark c) := by
  intro t rest a h u _
  cases t with
  | nil => cases h
  | cons d t =>
    simp only [mark, StateT.run, List.cons_append] at h ⊢
    split at h
    · next hd =>
      cases h
      rw [if_pos hd]
    · cases h

/-! ## What is read -/

/-- Whatever a reader takes has a property. -/
def Yields (r : Reader α) (P : α → Prop) : Prop :=
  ∀ (t rest : Text) (a : α), r.run t = .ok (a, rest) → P a

namespace Yields

variable {P : α → Prop} {Q : β → Prop}

theorem pure {a : α} (h : P a) : Yields (Pure.pure a) P := by
  intro t rest b hrun
  cases hrun
  exact h

theorem bind {r : Reader α} {f : α → Reader β} (hr : Yields r P)
    (hf : ∀ a, P a → Yields (f a) Q) : Yields (r >>= f) Q := by
  intro t rest b hrun
  obtain ⟨a, mid, ha, hb⟩ := run_bind_eq_ok_iff.1 hrun
  exact hf a (hr t mid a ha) mid rest b hb

/-- A first part of which nothing is known. -/
theorem next {r : Reader α} {f : α → Reader β} (hf : ∀ a, Yields (f a) Q) : Yields (r >>= f) Q :=
  bind (fun _ _ _ _ => trivial) fun a _ => hf a

end Yields

/-! ## Digits -/

/-- The part of a text in which digits are looked for. -/
def window (most : Option Nat) (t : Text) : Text :=
  match most with
  | some n => t.take n
  | none => t

theorem run_digits_of_nil {most : Option Nat} {t : Text}
    (h : (window most t).takeWhile Char.isDigit = []) :
    (digits most).run t = .error (if t.isEmpty then .tooShort else .invalid) := by
  cases most <;>
  · simp only [window] at h
    simp only [digits, StateT.run, h]

theorem run_digits_of_ne_nil {most : Option Nat} {t ds : Text}
    (h : (window most t).takeWhile Char.isDigit = ds) (hne : ds ≠ []) :
    (digits most).run t = .ok (ds, t.drop ds.length) := by
  obtain ⟨d, later, rfl⟩ := List.exists_cons_of_ne_nil hne
  cases most <;>
  · simp only [window] at h
    simp only [digits, StateT.run, h]

theorem run_digits_eq_ok_iff {most : Option Nat} {t ds rest : Text} :
    (digits most).run t = .ok (ds, rest) ↔
      ds ≠ [] ∧ (window most t).takeWhile Char.isDigit = ds ∧ rest = t.drop ds.length := by
  constructor
  · intro h
    by_cases hnil : (window most t).takeWhile Char.isDigit = []
    · cases (run_digits_of_nil hnil).symm.trans h
    · cases (run_digits_of_ne_nil rfl hnil).symm.trans h
      exact ⟨hnil, rfl, rfl⟩
  · rintro ⟨hne, hds, rfl⟩
    exact run_digits_of_ne_nil hds hne

theorem takeWhile_window_append (most : Option Nat) (t : Text) {u : Text} (h : Stops u) :
    (window most (t ++ u)).takeWhile Char.isDigit = (window most t).takeWhile Char.isDigit := by
  cases most with
  | none => exact takeWhile_isDigit_append t h
  | some n => rw [window, List.take_append, takeWhile_isDigit_append _ (h.take _), window]

theorem length_takeWhile_window_le (most : Option Nat) (t : Text) :
    ((window most t).takeWhile Char.isDigit).length ≤ t.length := by
  have hle := (List.takeWhile_sublist Char.isDigit (l := window most t)).length_le
  cases most with
  | none => exact hle
  | some n => exact hle.trans (List.length_take_le' n t)

theorem stable_digits (most : Option Nat) : Stable (digits most) := by
  intro t rest ds h u hu
  obtain ⟨hne, hds, rfl⟩ := run_digits_eq_ok_iff.1 h
  refine run_digits_eq_ok_iff.2 ⟨hne, (takeWhile_window_append most t hu).trans hds, ?_⟩
  rw [List.drop_append_of_le_length]
  exact hds ▸ length_takeWhile_window_le most t

theorem stable_natural (most : Option Nat) : Stable (natural most) :=
  (stable_digits most).bind fun _ => .ite (.pure _) (.throw _)

theorem stable_field (least most : Nat) : Stable (field least most) :=
  stable_blanks.bind fun _ => (stable_natural _).bind fun _ => .ite (.pure _) (.throw _)

/-! ## Years -/

/-- A number that is read as an integer. -/
def naturalAs (value : Nat → Int) (most : Option Nat) : Reader Int := do
  return value (← natural most)

/-- Without a sign, a year has up to four digits. -/
theorem run_yearNumber_unsigned {t : Text} (hminus : t.head? ≠ some '-')
    (hplus : t.head? ≠ some '+') :
    yearNumber.run t = (naturalAs Nat.cast (some 4)).run t := by
  unfold yearNumber
  rw [run_bind_of_eq_ok (show StateT.run get t = Except.ok (t, t) from rfl)]
  split
  · simp at hminus
  · simp at hplus
  · rfl

/-- The first character of a text says how the number of a year is read. -/
theorem exists_run_yearNumber (c : Char) (t : Text) :
    ∃ value most start, ∀ u,
      yearNumber.run (c :: t ++ u) = (naturalAs value most).run (start ++ u) := by
  by_cases hminus : c = '-'
  · exact ⟨fun n => -(n : Int), none, t, fun u => by rw [hminus]; rfl⟩
  by_cases hplus : c = '+'
  · exact ⟨Nat.cast, none, t, fun u => by rw [hplus]; rfl⟩
  · exact ⟨Nat.cast, some 4, c :: t, fun u =>
      run_yearNumber_unsigned (by simpa using hminus) (by simpa using hplus)⟩

theorem stable_yearNumber : Stable yearNumber := by
  intro t rest y h u hu
  cases t with
  | nil => cases h
  | cons c t =>
    obtain ⟨value, most, start, hrun⟩ := exists_run_yearNumber c t
    have hstable : Stable (naturalAs value most) := (stable_natural most).bind fun _ => .pure _
    rw [← List.append_nil (c :: t), hrun, List.append_nil] at h
    rw [hrun]
    exact hstable start rest y h u hu

theorem stable_year : Stable year :=
  stable_blanks.bind fun _ => stable_yearNumber.bind fun _ => .ite (.pure _) (.throw _)

/-! ## Forms -/

theorem stable_tight : Stable tight := .pure ()

theorem stable_date : Stable (date tight) :=
  stable_year.bind fun _ => stable_tight.bind fun _ => (stable_mark '-').bind fun _ =>
    (stable_field 1 12).bind fun _ => stable_tight.bind fun _ => (stable_mark '-').bind fun _ =>
      (stable_field 1 31).bind fun _ => .pure _

theorem stable_hourMinute : Stable (hourMinute tight) :=
  (stable_field 0 23).bind fun _ => stable_tight.bind fun _ => (stable_mark ':').bind fun _ =>
    (stable_field 0 59).bind fun _ => .pure _

theorem stable_hourMinuteSecond : Stable (hourMinuteSecond tight) :=
  stable_hourMinute.bind fun _ => stable_tight.bind fun _ => (stable_mark ':').bind fun _ =>
    (stable_field 0 60).bind fun _ => .pure _

theorem stable_form {time : Reader TimeParts} (h : Stable time) :
    Stable (DateTime.form tight time) :=
  stable_date.bind fun _ => stable_tight.bind fun _ => (stable_mark 'T').bind fun _ =>
    h.bind fun _ => .pure _

theorem yields_hourMinuteSecond (gap : Reader Unit) :
    Yields (hourMinuteSecond gap) fun p => p.nano = 0 :=
  .next fun _ => .next fun _ => .next fun _ => .next fun _ => .pure rfl

theorem yields_form (gap : Reader Unit) {time : Reader TimeParts} {P : TimeParts → Prop}
    (h : Yields time P) : Yields (DateTime.form gap time) fun p => P p.2 :=
  .next fun _ => .next fun _ => .next fun _ => h.bind fun _ hp => .pure hp

/-- A part that is read alone is read in front of a mark. -/
theorem run_marked {r : Reader α} (hr : Stable r) {t : Text} {a : α} (h : r.run t = .ok (a, []))
    {c : Char} (hc : c.isDigit = false ∧ isBlank c = false) (u : Text) (f : α → Reader β) :
    (do let a ← r; tight; mark c; f a : Reader β).run (t ++ c :: u) = (f a).run u := by
  have hstops : Stops (c :: u) := by
    rintro d ⟨⟩
    exact hc
  rw [run_bind_of_eq_ok (hr t [] a h (c :: u) hstops), List.nil_append,
    run_bind_of_eq_ok (r := tight) rfl, run_bind_of_eq_ok (run_mark c u)]

theorem run_date {y m d : Text} {parts : DateParts} (hy : year.run y = .ok (parts.year, []))
    (hm : (field 1 12).run m = .ok (parts.month, []))
    (hd : (field 1 31).run d = .ok (parts.day, [])) :
    (date tight).run (y ++ '-' :: (m ++ '-' :: d)) = .ok (parts, []) := by
  rw [date, run_marked stable_year hy (by decide), run_marked (stable_field 1 12) hm (by decide),
    run_bind_of_eq_ok hd]
  rfl

theorem run_hourMinute {h m : Text} {hour minute : Nat}
    (hh : (field 0 23).run h = .ok (hour, [])) (hm : (field 0 59).run m = .ok (minute, [])) :
    (hourMinute tight).run (h ++ ':' :: m) = .ok ((hour, minute), []) := by
  rw [hourMinute, run_marked (stable_field 0 23) hh (by decide), run_bind_of_eq_ok hm]
  rfl

theorem run_hourMinuteSecond {hm s : Text} {hour minute second : Nat}
    (hhm : (hourMinute tight).run hm = .ok ((hour, minute), []))
    (hs : (field 0 60).run s = .ok (second, [])) :
    (hourMinuteSecond tight).run (hm ++ ':' :: s) = .ok (⟨hour, minute, second, 0⟩, []) := by
  rw [hourMinuteSecond, run_marked stable_hourMinute hhm (by decide), run_bind_of_eq_ok hs]
  rfl

theorem run_form {d u : Text} {parts : DateParts} {time : Reader TimeParts} {timeParts : TimeParts}
    (hd : (date tight).run d = .ok (parts, [])) (hu : time.run u = .ok (timeParts, [])) :
    (DateTime.form tight time).run (d ++ 'T' :: u) = .ok ((parts, timeParts), []) := by
  rw [DateTime.form, run_marked stable_date hd (by decide), run_bind_of_eq_ok hu]
  rfl

/-- Hours and minutes as the parts of a time. -/
def minutes : Reader TimeParts := do
  let (h, m) ← hourMinute tight
  return ⟨h, m, 0, 0⟩

/-- The form with seconds goes on where the form with minutes ends. -/
theorem form_hourMinuteSecond :
    DateTime.form tight (hourMinuteSecond tight) = (do
      let (d, p) ← DateTime.form tight minutes
      mark ':'
      return (d, { p with second := ← field 0 60 })) := by
  simp only [DateTime.form, hourMinuteSecond, minutes, tight, bind_assoc, pure_bind]

/-- The form with a fraction goes on where the form with seconds ends. -/
theorem form_time :
    DateTime.form tight (time tight) = (do
      let (d, p) ← DateTime.form tight (hourMinuteSecond tight)
      return (d, { p with nano := ← fraction })) := by
  simp only [DateTime.form, time, bind_assoc, pure_bind]

/-! ## Numerals -/

theorem isBlank_of_isDigit {c : Char} (h : c.isDigit = true) : isBlank c = false := by
  simp only [Char.isDigit, Bool.and_eq_true, decide_eq_true_eq] at h
  have hleast : 48 ≤ c.toNat := h.1
  have hmost : c.toNat ≤ 57 := h.2
  simp only [isBlank, Bool.or_eq_false_iff, Bool.and_eq_false_iff, decide_eq_false_iff_not]
  omega

variable {n : Nat} {t : Text}

theorem trimStart_numeral (h : t.IsNumeral n) : Text.trimStart t = t :=
  Text.trimStart_eq_self_iff.2 fun c hc =>
    isBlank_of_isDigit (h.isDigit c (List.mem_of_mem_head? hc))

theorem run_natural_numeral {most : Option Nat} (h : t.IsNumeral n)
    (hmost : ∀ k ∈ most, t.length ≤ k) (hn : n < 2 ^ 63) :
    (natural most).run t = .ok (n, []) := by
  have hwindow : window most t = t := by
    cases most with
    | none => rfl
    | some k => exact List.take_of_length_le (hmost k rfl)
  have hdigits : (digits most).run t = .ok (t, []) := by
    refine run_digits_eq_ok_iff.2 ⟨h.ne_nil, ?_, List.drop_length.symm⟩
    rw [hwindow]
    exact List.takeWhile_eq_self_iff.2 h.isDigit
  rw [natural, run_bind_of_eq_ok hdigits, h.value, if_pos (show n < Nat.pow 2 63 from hn)]
  rfl

theorem run_field_numeral {least most : Nat} (h : t.IsNumeral n) (hlength : t.length ≤ 2)
    (hn : least ≤ n ∧ n ≤ most) : (field least most).run t = .ok (n, []) := by
  have hlt : n < 100 := h.lt_pow_length.trans_le (Nat.pow_le_pow_right (by decide) hlength)
  have hblanks : blanks.run t = .ok ((), t) :=
    congrArg (fun u => Except.ok ((), u)) (trimStart_numeral h)
  rw [field, run_bind_of_eq_ok hblanks,
    run_bind_of_eq_ok (run_natural_numeral h (by simpa using hlength) (by omega)), if_pos hn]
  rfl

theorem run_year_of_yearNumber {y : Int} (hblank : ∀ c ∈ t.head?, isBlank c = false)
    (hnumber : yearNumber.run t = .ok (y, [])) (hy : -Int.pow 2 31 ≤ y ∧ y < Int.pow 2 31) :
    year.run t = .ok (y, []) := by
  have hblanks : blanks.run t = .ok ((), t) :=
    congrArg (fun u => Except.ok ((), u)) (Text.trimStart_eq_self_iff.2 hblank)
  rw [year, run_bind_of_eq_ok hblanks, run_bind_of_eq_ok hnumber, if_pos hy]
  rfl

theorem run_year_numeral (h : t.IsNumeral n) (hlength : t.length ≤ 4) :
    year.run t = .ok ((n : Int), []) := by
  have hlt : n < 10000 := h.lt_pow_length.trans_le (Nat.pow_le_pow_right (by decide) hlength)
  have hsign : ∀ c : Char, c.isDigit = false → t.head? ≠ some c := fun c hc hhead =>
    h.not_mem hc (List.mem_of_mem_head? hhead)
  have hnumber : yearNumber.run t = .ok ((n : Int), []) := by
    rw [run_yearNumber_unsigned (hsign '-' rfl) (hsign '+' rfl), naturalAs,
      run_bind_of_eq_ok (run_natural_numeral h (by simpa using hlength) (by omega))]
    rfl
  have hrange : -Int.pow 2 31 ≤ (n : Int) ∧ (n : Int) < Int.pow 2 31 := by
    have : Int.pow 2 31 = 2147483648 := by decide
    omega
  refine run_year_of_yearNumber (fun c hc => ?_) hnumber hrange
  exact isBlank_of_isDigit (h.isDigit c (List.mem_of_mem_head? hc))

/-- Behind a sign, a year has any number of digits. -/
theorem run_year_signed (negative : Bool) (h : t.IsNumeral n) (hn : n < 2 ^ 31) :
    year.run ((if negative then '-' else '+') :: t) =
      .ok (if negative then -(n : Int) else n, []) := by
  have hnatural : (natural none).run t = .ok (n, []) :=
    run_natural_numeral h (by simp) (by omega)
  have hrange : Int.pow 2 31 = 2147483648 := by decide
  cases negative with
  | true =>
    refine run_year_of_yearNumber (by rintro c ⟨⟩; decide) ?_ (by simp only [if_true]; omega)
    exact run_bind_of_eq_ok hnatural fun n => pure (-(n : Int))
  | false =>
    refine run_year_of_yearNumber (by rintro c ⟨⟩; decide) ?_ (by simp; omega)
    exact run_bind_of_eq_ok hnatural fun n => pure (n : Int)

/-- The digits behind a point are nanoseconds, as if zeros followed up to the ninth. -/
theorem run_fraction_numeral (h : t.IsNumeral n) (hlength : t.length ≤ 9) :
    fraction.run ('.' :: t) = .ok (n * 10 ^ (9 - t.length), []) := by
  have hdigits : t.takeWhile Char.isDigit = t := List.takeWhile_eq_self_iff.2 h.isDigit
  have hvalue := h.value
  obtain ⟨d, later, rfl⟩ := List.exists_cons_of_ne_nil h.ne_nil
  simp only [fraction, StateT.run, hdigits, List.take_of_length_le hlength, hvalue,
    List.drop_length]
  rfl

end RecordQuery.Reader

/-! ## From parts -/

namespace RecordQuery

open Reader

/-- The parts of a date. -/
def Date.parts (d : Date) : DateParts := ⟨d.year, d.month, d.day⟩

/-- The parts of a time of day. -/
def Time.parts (t : Time) : TimeParts := ⟨t.hour, t.minute, t.second, t.nano⟩

theorem Date.toDate_eq_ok_iff {p : DateParts} {d : Date} : p.toDate = .ok d ↔ d.parts = p := by
  have hparts : d.parts = p ↔ Date.ofParts? p.year p.month p.day = some d := by
    rw [Date.ofParts?_eq_some_iff, Date.parts, DateParts.mk.injEq]
  rw [hparts, DateParts.toDate]
  cases Date.ofParts? p.year p.month p.day <;> simp

theorem Time.ofParts?_eq_some_iff {p : TimeParts} {t : Time} :
    Time.ofParts? p.hour p.minute p.second p.nano = some t ↔ t.parts = p := by
  constructor
  · intro h
    unfold Time.ofParts? at h
    split at h
    · cases h
      rfl
    · cases h
  · rintro rfl
    exact dif_pos ⟨t.hour_lt, t.minute_lt, t.second_le, t.nano_lt⟩

namespace DateTime

theorem ofParts_eq_ok_iff {p : DateParts} {q : TimeParts} {t : DateTime} :
    ofParts p q = .ok t ↔ t.date.parts = p ∧ t.time.parts = q := by
  obtain ⟨d, u⟩ := t
  rw [← Date.toDate_eq_ok_iff, ← Time.ofParts?_eq_some_iff, ofParts]
  cases p.toDate with
  | error e => simp [bind, Except.bind]
  | ok d =>
    cases Time.ofParts? q.hour q.minute q.second q.nano with
    | none => simp [bind, Except.bind, throw, throwThe, MonadExceptOf.throw]
    | some u => simp [bind, Except.bind, pure, Except.pure]

/-- A text of a form is one that gives the parts of a date-time and no rest. -/
theorem ofForm_eq_ok_iff {time : Reader TimeParts} {t : Text} {dt : DateTime} :
    ofForm tight time t = .ok dt ↔
      (form tight time).run t = .ok ((dt.date.parts, dt.time.parts), []) := by
  rw [← whole_eq_ok_iff, ofForm]
  cases (form tight time).whole t with
  | error e => simp [bind, Except.bind]
  | ok p => exact ofParts_eq_ok_iff.trans (by simp [Prod.ext_iff, eq_comm])

end DateTime

theorem Date.ofText_eq_ok_iff {t : Text} {d : Date} :
    Date.ofText t = .ok d ↔ (date tight).run t = .ok (d.parts, []) := by
  rw [← whole_eq_ok_iff, Date.ofText]
  cases (date tight).whole t with
  | error e => simp [bind, Except.bind]
  | ok p => exact Date.toDate_eq_ok_iff.trans (by simp [eq_comm])

end RecordQuery
