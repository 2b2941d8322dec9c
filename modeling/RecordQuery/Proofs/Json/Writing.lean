import RecordQuery.Json.Printer

/-!
# Written values

What is written for a value is read as the document of the value (`Json.document`), in the compact
form and in the form over several lines alike. Two steps lead there. `Lexeme.Spells` says that a
text is cut into certain lexemes whatever stands behind it, so that the parts of a written value can
be put together; and the reading machine gets from the lexemes of a document to the document
whatever is around it (`Document.foldlM_lexemes`).

Numbers are left out here. A number ends where something else begins, so it does not stand for its
lexeme in front of any text, and nothing that is said of values without numbers needs it.

## Main results

* `Lexeme.readString_flatMap_escapeChar`: escaping a text loses nothing
* `Document.ofLexemes?_lexemes`: a document is known by its lexemes
* `Json.Numberless.ofText?_compact`, `Json.Numberless.ofText?_pretty`: what is written is read
-/

namespace RecordQuery.Json

/-! ## Strings -/

namespace Lexeme

/-- The two digits of a control character. -/
theorem hexCode?_hexDigit {n : Nat} (h : n < 0x20) :
    hexCode? '0' '0' (hexDigit (n / 16)) (hexDigit n) = some n := by
  have key : ∀ n < 0x20, hexCode? '0' '0' (hexDigit (n / 16)) (hexDigit n) = some n := by decide
  exact key n h

/-- The characters that are escaped with a letter or a sign, and with which one. -/
def lettered : List (Char × Char) :=
  [('"', '"'), ('\\', '\\'), ('\x08', 'b'), ('\x0c', 'f'), ('\n', 'n'), ('\r', 'r'), ('\t', 't')]

theorem escapeChar_of_mem_lettered {c e : Char} (h : (c, e) ∈ lettered) :
    e ≠ 'u' ∧ escapeChar c = ['\\', e] ∧ escaped? e = some c := by
  have key : ∀ p ∈ lettered,
      p.2 ≠ 'u' ∧ escapeChar p.1 = ['\\', p.2] ∧ escaped? p.2 = some p.1 := by
    decide
  exact key (c, e) h

theorem escapeChar_of_not_mem_lettered {c : Char} (h : ∀ e, (c, e) ∉ lettered) :
    escapeChar c = if c.toNat < 0x20 then
      ['\\', 'u', '0', '0', hexDigit (c.toNat / 16), hexDigit c.toNat] else [c] := by
  have hc : ∀ p ∈ lettered, c ≠ p.1 := fun p hp hc => h p.2 (hc ▸ hp)
  simp only [lettered, List.forall_mem_cons, List.not_mem_nil, false_implies, implies_true,
    and_true] at hc
  simp only [escapeChar, hc, if_false]

/-- **A character is read back from its form inside a string.** -/
theorem readString_escapeChar (c : Char) (rest : Text) :
    readString (escapeChar c ++ rest) =
      (readString rest).map fun (units, rest) => (.scalar c :: units, rest) := by
  by_cases h : ∃ e, (c, e) ∈ lettered
  · obtain ⟨e, he⟩ := h
    obtain ⟨hu, hform, hc⟩ := escapeChar_of_mem_lettered he
    rw [hform, List.cons_append, List.singleton_append, readString, hc]
    exact fun _ _ _ _ _ he => absurd he hu
  rw [not_exists] at h
  rw [escapeChar_of_not_mem_lettered h]
  split
  · next hcontrol =>
    have hcode : StringUnit.ofCode c.toNat = .scalar c := by
      rw [StringUnit.ofCode, if_neg, Char.ofNat_toNat]
      simp only [Bool.and_eq_true, decide_eq_true_eq, not_and]
      omega
    simp only [List.cons_append, List.nil_append, readString, hexCode?_hexDigit hcontrol, hcode]
  · next hcontrol =>
    have hquote : c ≠ '"' := by
      rintro rfl
      exact h '"' (by decide)
    have hslash : c ≠ '\\' := by
      rintro rfl
      exact h '\\' (by decide)
    rw [List.singleton_append, readString, if_neg (by simp [hslash, hcontrol])]
    · exact hquote
    · exact fun _ _ _ _ _ hc => absurd hc hslash
    · exact fun _ _ hc => absurd hc hslash

/-- **A text is read back from its form inside a string.** -/
theorem readString_flatMap_escapeChar (t rest : Text) :
    readString (t.flatMap escapeChar ++ '"' :: rest) = some (t.map .scalar, rest) := by
  induction t with
  | nil => rfl
  | cons c t ih =>
    rw [List.flatMap_cons, List.append_assoc, readString_escapeChar, ih]
    rfl

/-! ## Texts and their lexemes -/

/-- A text stands for lexemes wherever it is written. -/
def Spells (t : Text) (lexemes : List Lexeme) : Prop :=
  ∀ rest, ofText? (t ++ rest) = (ofText? rest).map (lexemes ++ ·)

/-- The marks and words of JSON and their lexemes. -/
def marks : List (Text × Lexeme) :=
  [(['\x7b'], .openObject), (['\x7d'], .closeObject), (['['], .openArray), ([']'], .closeArray),
    ([':'], .colon), ([','], .comma), ("null".toList, .null), ("true".toList, .bool true),
    ("false".toList, .bool false)]

namespace Spells

variable {s t : Text} {ls ms : List Lexeme}

theorem ofText?_eq (h : Spells t ls) : ofText? t = some ls := by
  have hnil := h []
  simpa [ofText?] using hnil

theorem nil : Spells [] [] := fun rest => by simp

theorem append (hs : Spells s ls) (ht : Spells t ms) : Spells (s ++ t) (ls ++ ms) := by
  intro rest
  rw [List.append_assoc, hs, ht, Option.map_map]
  simp [Function.comp_def]

/-- A mark or a word stands for its lexeme wherever it is written. -/
theorem of_mem_marks {l : Lexeme} (h : (t, l) ∈ marks) : Spells t [l] := by
  intro rest
  simp only [marks, List.mem_cons, List.not_mem_nil, or_false, Prod.mk.injEq] at h
  rcases h with ⟨rfl, rfl⟩ | ⟨rfl, rfl⟩ | ⟨rfl, rfl⟩ | ⟨rfl, rfl⟩ | ⟨rfl, rfl⟩ | ⟨rfl, rfl⟩ |
    ⟨rfl, rfl⟩ | ⟨rfl, rfl⟩ | ⟨rfl, rfl⟩ <;> simp [ofText?]

theorem openObject : Spells ['\x7b'] [.openObject] := of_mem_marks (by decide)

theorem closeObject : Spells ['\x7d'] [.closeObject] := of_mem_marks (by decide)

theorem openArray : Spells ['['] [.openArray] := of_mem_marks (by decide)

theorem closeArray : Spells [']'] [.closeArray] := of_mem_marks (by decide)

theorem colon : Spells [':'] [.colon] := of_mem_marks (by decide)

theorem comma : Spells [','] [.comma] := of_mem_marks (by decide)

theorem null : Spells (compact .null) [.null] := of_mem_marks (by decide)

theorem bool (b : Bool) : Spells (compact (.bool b)) [.bool b] := by
  cases b <;> exact of_mem_marks (by decide)

theorem quote (t : Text) : Spells (quote t) [.string (t.map .scalar)] := by
  intro rest
  have hread : readString (t.flatMap escapeChar ++ ['"'] ++ rest) = some (t.map .scalar, rest) := by
    rw [List.append_assoc]
    exact readString_flatMap_escapeChar t rest
  rw [Json.quote, List.cons_append, ofText?]
  split
  · next hnone => cases hread.symm.trans hnone
  · next hsome =>
    obtain ⟨rfl, rfl⟩ := Prod.mk.inj (Option.some.inj (hread.symm.trans hsome))
    rfl

theorem of_spaces (h : ∀ c ∈ t, isSpace c = true) : Spells t [] := by
  induction t with
  | nil => exact nil
  | cons c t ih =>
    obtain ⟨hc, ht⟩ := List.forall_mem_cons.1 h
    have hspace : Spells [c] [] := by
      intro rest
      simp only [isSpace, Bool.or_eq_true, decide_eq_true_eq] at hc
      rcases hc with ((rfl | rfl) | rfl) | rfl <;> simp [ofText?, isSpace]
    exact hspace.append (ih ht)

theorem space : Spells [' '] [] := of_spaces (by simp [isSpace])

theorem colonSpace : Spells [':', ' '] [.colon] := colon.append space

theorem newline (level : Nat) : Spells (newline level) [] := by
  refine of_spaces fun c hc => ?_
  rw [Json.newline, List.mem_cons] at hc
  rcases hc with rfl | hc
  · decide
  · rw [List.eq_of_mem_replicate hc]
    decide

end Spells

end Lexeme

/-! ## Documents and their lexemes -/

namespace Document

mutual

/-- The lexemes of a document. -/
def lexemes : Document → List Lexeme
  | null => [.null]
  | bool b => [.bool b]
  | number n => [.number n]
  | string units => [.string units]
  | array [] => [.openArray, .closeArray]
  | array (v :: items) => .openArray :: (lexemes v ++ lexemesItems items ++ [.closeArray])
  | object [] => [.openObject, .closeObject]
  | object ((k, v) :: members) =>
    .openObject :: .string k :: .colon :: (lexemes v ++ lexemesMembers members ++ [.closeObject])

/-- The lexemes of items after the first one. -/
def lexemesItems : List Document → List Lexeme
  | [] => []
  | v :: items => .comma :: (lexemes v ++ lexemesItems items)

/-- The lexemes of members after the first one. -/
def lexemesMembers : List (List StringUnit × Document) → List Lexeme
  | [] => []
  | (k, v) :: members => .comma :: .string k :: .colon :: (lexemes v ++ lexemesMembers members)

end

/-- No document begins with the end of an array, so the first item of an array is read as any value
is. -/
theorem foldlM_item (d : Document) (around : List Container) (rest : List Lexeme) :
    (d.lexemes ++ rest).foldlM Reading.step? (.item around) =
      (d.lexemes ++ rest).foldlM Reading.step? (.value (.array [] :: around)) := by
  cases d with
  | array items => cases items <;> rfl
  | object members => cases members <;> rfl
  | _ => rfl

mutual

/-- **The lexemes of a document are read as the document**, whatever is around it and behind it. -/
theorem foldlM_lexemes : ∀ (d : Document) (around : List Container) (rest : List Lexeme),
    (d.lexemes ++ rest).foldlM Reading.step? (.value around) =
      rest.foldlM Reading.step? (.done d around)
  | .null, _, _ | .bool _, _, _ | .number _, _, _ | .string _, _, _ | .array [], _, _
  | .object [], _, _ => rfl
  | .array (v :: items), around, rest => by
    simp only [lexemes, List.cons_append, List.append_assoc, List.nil_append]
    calc
      _ = (v.lexemes ++ (lexemesItems items ++ Lexeme.closeArray :: rest)).foldlM Reading.step?
            (.item around) := rfl
      _ = (lexemesItems items ++ Lexeme.closeArray :: rest).foldlM Reading.step?
            (.done v (.array [] :: around)) := by rw [foldlM_item, foldlM_lexemes v]
      _ = rest.foldlM Reading.step? (.done (.array (v :: items)) around) :=
        foldlM_lexemesItems items v [] around rest
  | .object ((k, v) :: members), around, rest => by
    simp only [lexemes, List.cons_append, List.append_assoc, List.nil_append]
    calc
      _ = (v.lexemes ++ (lexemesMembers members ++ Lexeme.closeObject :: rest)).foldlM
            Reading.step? (.value (.object [] k :: around)) := rfl
      _ = (lexemesMembers members ++ Lexeme.closeObject :: rest).foldlM Reading.step?
            (.done v (.object [] k :: around)) := foldlM_lexemes v _ _
      _ = rest.foldlM Reading.step? (.done (.object ((k, v) :: members)) around) :=
        foldlM_lexemesMembers members k v [] around rest

/-- The items behind those that have been read, up to the end of the array. -/
theorem foldlM_lexemesItems : ∀ (items : List Document) (v : Document) (read : List Document)
    (around : List Container) (rest : List Lexeme),
    (lexemesItems items ++ Lexeme.closeArray :: rest).foldlM Reading.step?
        (.done v (.array read :: around)) =
      rest.foldlM Reading.step? (.done (.array (read.reverse ++ v :: items)) around)
  | [], v, read, around, rest => by
    rw [← List.reverse_cons]
    rfl
  | w :: items, v, read, around, rest => by
    simp only [lexemesItems, List.cons_append, List.append_assoc]
    calc
      _ = (w.lexemes ++ (lexemesItems items ++ Lexeme.closeArray :: rest)).foldlM Reading.step?
            (.value (.array (v :: read) :: around)) := rfl
      _ = (lexemesItems items ++ Lexeme.closeArray :: rest).foldlM Reading.step?
            (.done w (.array (v :: read) :: around)) := foldlM_lexemes w _ _
      _ = rest.foldlM Reading.step? (.done (.array (read.reverse ++ v :: w :: items)) around) := by
        rw [foldlM_lexemesItems items, List.reverse_cons, List.append_assoc, List.singleton_append]

/-- The members behind those that have been read, up to the end of the object. -/
theorem foldlM_lexemesMembers : ∀ (members : List (List StringUnit × Document))
    (k : List StringUnit) (v : Document) (read : List (List StringUnit × Document))
    (around : List Container) (rest : List Lexeme),
    (lexemesMembers members ++ Lexeme.closeObject :: rest).foldlM Reading.step?
        (.done v (.object read k :: around)) =
      rest.foldlM Reading.step? (.done (.object (read.reverse ++ (k, v) :: members)) around)
  | [], k, v, read, around, rest => by
    rw [← List.reverse_cons]
    rfl
  | (l, w) :: members, k, v, read, around, rest => by
    simp only [lexemesMembers, List.cons_append, List.append_assoc]
    calc
      _ = (w.lexemes ++ (lexemesMembers members ++ Lexeme.closeObject :: rest)).foldlM
            Reading.step? (.value (.object ((k, v) :: read) l :: around)) := rfl
      _ = (lexemesMembers members ++ Lexeme.closeObject :: rest).foldlM Reading.step?
            (.done w (.object ((k, v) :: read) l :: around)) := foldlM_lexemes w _ _
      _ = rest.foldlM Reading.step?
            (.done (.object (read.reverse ++ (k, v) :: (l, w) :: members)) around) := by
        rw [foldlM_lexemesMembers members, List.reverse_cons, List.append_assoc,
          List.singleton_append]

end

theorem ofLexemes?_lexemes (d : Document) : ofLexemes? d.lexemes = some d := by
  have h := foldlM_lexemes d [] []
  rw [List.append_nil] at h
  rw [ofLexemes?, h]
  rfl

end Document

/-! ## Values and their documents -/

open Lexeme (Spells)

mutual

/-- The document that a value is written as. A number without a form is written as `null`. -/
def document : Json → Document
  | null => .null
  | bool b => .bool b
  | number n => (Lexeme.numeral? n.text).elim .null .number
  | string t => .string (t.map .scalar)
  | array items => .array (documentItems items)
  | object members => .object (documentMembers members)

/-- The documents of items. -/
def documentItems : List Json → List Document
  | [] => []
  | v :: items => document v :: documentItems items

/-- The documents of members. -/
def documentMembers : List (Text × Json) → List (List StringUnit × Document)
  | [] => []
  | (k, v) :: members => (k.map .scalar, document v) :: documentMembers members

end

/-- Values that hold no number. -/
inductive Numberless : Json → Prop
  | null : Numberless null
  | bool (b : Bool) : Numberless (bool b)
  | string (t : Text) : Numberless (string t)
  | array {items : List Json} (h : ∀ v ∈ items, Numberless v) : Numberless (array items)
  | object {members : List (Text × Json)} (h : ∀ m ∈ members, Numberless m.2) :
    Numberless (object members)

theorem spells_compactItems {items : List Json}
    (h : ∀ v ∈ items, Spells v.compact v.document.lexemes) :
    Spells (compactItems items) (Document.lexemesItems (documentItems items)) := by
  induction items with
  | nil => exact .nil
  | cons v items ih =>
    obtain ⟨hv, hitems⟩ := List.forall_mem_cons.1 h
    exact Spells.comma.append (hv.append (ih hitems))

theorem spells_compactMembers {members : List (Text × Json)}
    (h : ∀ m ∈ members, Spells m.2.compact m.2.document.lexemes) :
    Spells (compactMembers members) (Document.lexemesMembers (documentMembers members)) := by
  induction members with
  | nil => exact .nil
  | cons m members ih =>
    obtain ⟨hv, hmembers⟩ := List.forall_mem_cons.1 h
    have hkey := (Spells.quote m.1).append .colon
    exact Spells.comma.append ((hkey.append hv).append (ih hmembers))

/-- **A value is spelled by its compact form.** -/
theorem Numberless.spells_compact {v : Json} (h : v.Numberless) :
    Spells v.compact v.document.lexemes := by
  induction h with
  | null => exact .null
  | bool b => exact .bool b
  | string t => exact .quote t
  | @array items _ ih =>
    cases items with
    | nil => exact Spells.openArray.append .closeArray
    | cons v items =>
      obtain ⟨hv, hitems⟩ := List.forall_mem_cons.1 ih
      exact Spells.openArray.append ((hv.append (spells_compactItems hitems)).append .closeArray)
  | @object members _ ih =>
    cases members with
    | nil => exact Spells.openObject.append .closeObject
    | cons m members =>
      obtain ⟨hv, hmembers⟩ := List.forall_mem_cons.1 ih
      have hkey := (Spells.quote m.1).append .colon
      exact Spells.openObject.append
        (((hkey.append hv).append (spells_compactMembers hmembers)).append .closeObject)

theorem spells_prettyItems {level : Nat} {items : List Json}
    (h : ∀ v ∈ items, Spells (v.pretty level) v.document.lexemes) :
    Spells (prettyItems level items) (Document.lexemesItems (documentItems items)) := by
  induction items with
  | nil => exact .nil
  | cons v items ih =>
    obtain ⟨hv, hitems⟩ := List.forall_mem_cons.1 h
    have hline := (Spells.newline level).append hv
    exact Spells.comma.append (hline.append (ih hitems))

theorem spells_prettyMembers {level : Nat} {members : List (Text × Json)}
    (h : ∀ m ∈ members, Spells (m.2.pretty level) m.2.document.lexemes) :
    Spells (prettyMembers level members) (Document.lexemesMembers (documentMembers members)) := by
  induction members with
  | nil => exact .nil
  | cons m members ih =>
    obtain ⟨hv, hmembers⟩ := List.forall_mem_cons.1 h
    have hline := (Spells.newline level).append (.quote m.1)
    exact Spells.comma.append (((hline.append .colonSpace).append hv).append (ih hmembers))

/-- **A value is spelled by its form over several lines.** -/
theorem Numberless.spells_pretty {v : Json} (h : v.Numberless) (level : Nat) :
    Spells (v.pretty level) v.document.lexemes := by
  induction h generalizing level with
  | null => exact .null
  | bool b => exact .bool b
  | string t => exact .quote t
  | @array items _ ih =>
    cases items with
    | nil => exact Spells.openArray.append .closeArray
    | cons v items =>
      obtain ⟨hv, hitems⟩ := List.forall_mem_cons.1 fun v hv => ih v hv (level + 1)
      have hline := (Spells.newline (level + 1)).append hv
      have hitems := hline.append (spells_prettyItems hitems)
      simpa [pretty, document, documentItems, Document.lexemes] using
        Spells.openArray.append ((hitems.append (.newline level)).append .closeArray)
  | @object members _ ih =>
    cases members with
    | nil => exact Spells.openObject.append .closeObject
    | cons m members =>
      obtain ⟨hv, hmembers⟩ := List.forall_mem_cons.1 fun m hm => ih m hm (level + 1)
      have hkey := ((Spells.newline (level + 1)).append (.quote m.1)).append .colonSpace
      have hmembers := (hkey.append hv).append (spells_prettyMembers hmembers)
      simpa [pretty, document, documentMembers, Document.lexemes] using
        Spells.openObject.append ((hmembers.append (.newline level)).append .closeObject)

theorem Numberless.ofText?_compact {v : Json} (h : v.Numberless) :
    Document.ofText? v.compact = some v.document := by
  rw [Document.ofText?, h.spells_compact.ofText?_eq]
  exact Document.ofLexemes?_lexemes v.document

theorem Numberless.ofText?_pretty {v : Json} (h : v.Numberless) (level : Nat) :
    Document.ofText? (v.pretty level) = some v.document := by
  rw [Document.ofText?, (h.spells_pretty level).ofText?_eq]
  exact Document.ofLexemes?_lexemes v.document

end RecordQuery.Json
