/-
What is written is JSON.

The text of a tree is a JSON text of the same parts: whoever takes it apart finds as many items in
every array, and under every key what was there.

* `Numeral.Shows`, `JsonSource.Shows` — the parts of a text show a tree;
* `JsonSource.scanString_escape` — strings are read as they were written;
* `Json.isRead` — the text of a tree is read from the front, whatever follows;
* `Json.exists_parse_render` — the text of a tree is a JSON text that shows the tree.

Design notes: what a text shows is not the same as what it means.  A reader may take decimal places
for a number close to the one that was written, so of a floating-point number the parts show no more
than the sign, and that it is not an integer.  The text of a tree may also be nested too deeply to
be read as a tree, and is a JSON text all the same.
-/
import StructuralMatching.Proofs.Json.NumberText
import StructuralMatching.Proofs.Text.RoundTrip

namespace StructuralMatching

/-- A numeral shows a number: it means the integer, or has the sign of the floating-point number
and a decimal point or a power of ten. -/
def Numeral.Shows (n : Numeral) : Json → Prop
  | .int k => n.toJson? = some (.int k)
  | .large k h => n.toJson? = some (.large k h)
  | .float x _ => n.negative = x.isNegative ∧ (n.places.isSome = true ∨ n.exponent.isSome = true)
  | _ => False

namespace JsonSource

/-- The parts of a text show a tree. -/
inductive Shows : JsonSource → Json → Prop where
  | null : Shows null .null
  | bool (b : Bool) : Shows (bool b) (.bool b)
  | number {n : Numeral} {j : Json} (h : n.Shows j) : Shows (number n) j
  | string {pieces : List Piece} {s : String} (h : Piece.text? pieces = some s) :
      Shows (string pieces) (.string s)
  | array {ss : List JsonSource} {js : List Json} (h : List.Forall₂ Shows ss js) :
      Shows (array ss) (.array js)
  | object {entries : List (List Piece × JsonSource)} {fields : List (String × Json)}
      (keys : entries.map (fun e => Piece.text? e.1) = fields.map fun f => some f.1)
      (values : List.Forall₂ Shows (entries.map Prod.snd) (fields.map Prod.snd)) :
      Shows (object entries) (.object fields)

/-! ### Strings -/

/-- The piece as which a character of a string is read. -/
def pieceOf (c : Char) : Piece :=
  if c.toNat < 32 ∧ c ≠ '\n' ∧ c ≠ '\r' ∧ c ≠ '\t' ∧ c.toNat ≠ 8 ∧ c.toNat ≠ 12 then .unit c.toNat
  else .char c

theorem hexValue?_hexDigit {n : Nat} (h : n < 16) : Json.hexValue? (Json.hexDigit n) = some n := by
  interval_cases n <;> rfl

theorem hexUnit?_hexDigit {n : Nat} (h : n < 32) :
    Json.hexUnit? '0' '0' (Json.hexDigit (n / 16)) (Json.hexDigit (n % 16)) = some n := by
  have hhigh : Json.hexValue? (Json.hexDigit (n / 16)) = some (n / 16) :=
    hexValue?_hexDigit (by omega)
  have hlow : Json.hexValue? (Json.hexDigit (n % 16)) = some (n % 16) :=
    hexValue?_hexDigit (by omega)
  have hzero : Json.hexValue? '0' = some 0 := rfl
  rw [Json.hexUnit?, hzero, hhigh, hlow]
  show some (((0 * 16 + 0) * 16 + n / 16) * 16 + n % 16) = some n
  congr 1
  omega

/-- One character of a string is read as one piece. -/
theorem scanString_escape (c : Char) (read : List Piece) (rest : List Char) :
    scanString read (Json.escape c ++ rest) = scanString (pieceOf c :: read) rest := by
  by_cases hletter : c = '"' ∨ c = '\\' ∨ c = '\n' ∨ c = '\r' ∨ c = '\t' ∨ c.toNat = 8 ∨
      c.toNat = 12
  · have hback : Char.ofNat c.toNat = c := Char.ofNat_toNat c
    rcases hletter with rfl | rfl | rfl | rfl | rfl | h | h
    all_goals first | rfl | (rw [h] at hback; rw [← hback]; rfl)
  · obtain ⟨hquote, hslash, hline, hreturn, htab, hback, hfeed⟩ := by
      simpa only [not_or] using hletter
    rw [Json.escape, if_neg hquote, if_neg hslash, if_neg hline, if_neg hreturn, if_neg htab,
      if_neg hback, if_neg hfeed, pieceOf]
    by_cases hcontrol : c.toNat < 32
    · rw [if_pos hcontrol, if_pos ⟨hcontrol, hline, hreturn, htab, hback, hfeed⟩]
      show scanString read ('\\' :: 'u' :: '0' :: '0' :: _ :: _ :: rest) = _
      rw [scanString, hexUnit?_hexDigit hcontrol]
    · rw [if_neg hcontrol, if_neg (fun h => hcontrol h.1)]
      show scanString read (c :: rest) = _
      rw [scanString, if_neg hcontrol]
      · exact hquote
      · exact fun _ _ _ _ _ h _ => hslash h
      · exact fun _ _ h _ => hslash h

theorem scanString_flatMap_escape (cs : List Char) (read : List Piece) (rest : List Char) :
    scanString read (cs.flatMap Json.escape ++ '"' :: rest) =
      some (read.reverse ++ cs.map pieceOf, rest) := by
  induction cs generalizing read with
  | nil => rw [List.flatMap_nil, List.map_nil, List.append_nil]; rfl
  | cons c cs ih =>
    rw [List.flatMap_cons, List.append_assoc, scanString_escape, ih, List.reverse_cons,
      List.append_assoc, List.map_cons]
    rfl

theorem charsAfter?_map_pieceOf (cs read : List Char) :
    Piece.charsAfter? read (cs.map pieceOf) = some (read.reverse ++ cs) := by
  induction cs generalizing read with
  | nil => rw [List.map_nil, List.append_nil]; rfl
  | cons c cs ih =>
    rw [List.map_cons, pieceOf]
    split
    · rename_i hc
      have hhigh : Text.isHighSurrogate c.toNat = false := by
        simp only [Text.isHighSurrogate, Bool.and_eq_false_iff, decide_eq_false_iff_not]
        omega
      rw [Piece.charsAfter?.eq_def]
      simp only [hhigh, Bool.false_eq_true, if_false, Text.scalar?_eq_some_iff.mpr rfl, ih,
        List.reverse_cons, List.append_assoc, List.singleton_append]
    · rw [Piece.charsAfter?, ih, List.reverse_cons, List.append_assoc]
      rfl

theorem toList_quote (s : String) :
    (Json.quote s).toList = '"' :: s.toList.flatMap Json.escape ++ ['"'] := by
  rw [Json.quote, String.toList_append, String.toList_append]
  exact congrArg (fun cs => '"' :: cs ++ ['"']) String.toList_ofList

/-- The pieces of a string. -/
def stringPieces (s : String) : List Piece := s.toList.map pieceOf

theorem text?_stringPieces (s : String) : Piece.text? (stringPieces s) = some s := by
  rw [Piece.text?, stringPieces, charsAfter?_map_pieceOf]
  exact congrArg some String.ofList_toList

/-- A string is read from behind its opening quote. -/
theorem scanString_quote (s : String) (rest : List Char) :
    scanString [] (s.toList.flatMap Json.escape ++ '"' :: rest) = some (stringPieces s, rest) :=
  scanString_flatMap_escape s.toList [] rest

/-! ### Arrays and objects -/

section

variable {fuel : Nat} {cs more rest : List Char} {s : JsonSource} {key : String}

theorem scanItems_last (h : scanValue fuel cs = some (s, ']' :: rest)) :
    scanItems (fuel + 1) cs = some ([s], rest) := by
  rw [scanItems, h]
  rfl

theorem scanItems_more {ss : List JsonSource} (h : scanValue fuel cs = some (s, ',' :: more))
    (hmore : scanItems fuel more = some (ss, rest)) :
    scanItems (fuel + 1) cs = some (s :: ss, rest) := by
  rw [scanItems, h]
  show (scanItems fuel more).bind _ = _
  rw [hmore]
  rfl

theorem scanEntries_last (h : scanValue fuel cs = some (s, '}' :: rest)) :
    scanEntries (fuel + 1) ((Json.quote key).toList ++ ':' :: cs) =
      some ([(stringPieces key, s)], rest) := by
  rw [toList_quote, List.append_assoc]
  show (scanString [] (_ ++ '"' :: ':' :: cs)).bind _ = _
  rw [scanString_quote]
  show (scanValue fuel cs).bind _ = _
  rw [h]
  rfl

theorem scanEntries_more {entries : List (List Piece × JsonSource)}
    (h : scanValue fuel cs = some (s, ',' :: more))
    (hmore : scanEntries fuel more = some (entries, rest)) :
    scanEntries (fuel + 1) ((Json.quote key).toList ++ ':' :: cs) =
      some ((stringPieces key, s) :: entries, rest) := by
  rw [toList_quote, List.append_assoc]
  show (scanString [] (_ ++ '"' :: ':' :: cs)).bind _ = _
  rw [scanString_quote]
  show (scanValue fuel cs).bind _ = _
  rw [h]
  show (scanEntries fuel more).bind _ = _
  rw [hmore]
  rfl

end

/-! ### Values by their first characters -/

theorem scanValue_string (fuel : Nat) (s : String) (rest : List Char) :
    scanValue (fuel + 1) ((Json.quote s).toList ++ rest) =
      some (string (stringPieces s), rest) := by
  rw [toList_quote, List.append_assoc]
  show (scanString [] (_ ++ '"' :: rest)).map _ = _
  rw [scanString_quote]
  rfl

/-- Behind an opening bracket there are items, unless it is closed at once. -/
theorem scanValue_array {fuel : Nat} {c : Char} {cs rest : List Char} {ss : List JsonSource}
    (hblank : skipBlanks (c :: cs) = c :: cs) (hc : c ≠ ']')
    (h : scanItems fuel (c :: cs) = some (ss, rest)) :
    scanValue (fuel + 1) ('[' :: c :: cs) = some (array ss, rest) := by
  have hopen : skipBlanks ('[' :: c :: cs) = '[' :: c :: cs := rfl
  rw [scanValue, hopen]
  simp only [hblank]
  split
  · rename_i heq
    exact absurd (List.cons.inj heq).1 hc
  · rw [h]
    rfl

theorem scanValue_object {fuel : Nat} {cs rest : List Char}
    {entries : List (List Piece × JsonSource)}
    (h : scanEntries fuel ('"' :: cs) = some (entries, rest)) :
    scanValue (fuel + 1) ('{' :: '"' :: cs) = some (object entries, rest) := by
  show (scanEntries fuel ('"' :: cs)).map _ = _
  rw [h]
  rfl

/-- A digit or a minus sign is not a blank. -/
theorem skipBlanks_cons_of_number {c : Char} (hc : c = '-' ∨ c.isDigit = true) (cs : List Char) :
    skipBlanks (c :: cs) = c :: cs := by
  refine List.dropWhile_cons_of_neg ?_
  simp only [decide_eq_true_eq]
  rintro (rfl | rfl | rfl | rfl) <;> exact absurd hc (by decide)

/-- A number is read where there is a digit or a minus sign. -/
theorem scanValue_eq_scanNumber {c : Char} (hc : c = '-' ∨ c.isDigit = true) (fuel : Nat)
    (cs : List Char) : scanValue (fuel + 1) (c :: cs) = scanNumber (c :: cs) := by
  have hne : ∀ d : Char, d ≠ '-' → d.isDigit = false → c ≠ d := by
    rintro d hminus hdigit rfl
    rcases hc with rfl | hc
    · exact hminus rfl
    · rw [hdigit] at hc
      cases hc
  rw [scanValue, skipBlanks_cons_of_number hc]
  split
  case h_7 => rfl
  all_goals
    rename_i heq
    exact absurd (List.cons.inj heq).1 (hne _ (by decide) rfl)

end JsonSource

namespace Json

open JsonSource NumberText

/-- The text of a tree is read as parts that show the tree, in not more steps than there are
characters and whatever stands behind it that may stand behind a value. -/
def IsRead (j : Json) : Prop :=
  ∀ (fuel : Nat) (rest : List Char), Ends rest → j.render.toList.length ≤ fuel →
    ∃ s, scanValue fuel (j.render.toList ++ rest) = some (s, rest) ∧ s.Shows j

/-! ### Numbers -/

/-- A tree that is written as a number. -/
def IsWrittenAsNumber (j : Json) : Prop :=
  ∃ t : NumberText, t.WellFormed ∧ t.chars = j.render.toList ∧ t.numeral.Shows j

theorem isWrittenAsNumber_int (n : Int64) : (int n).IsWrittenAsNumber := by
  refine ⟨ofWhole (n.toInt < 0) n.toInt.natAbs, wellFormed_ofWhole _ _, ?_, toJson?_ofWhole_int n⟩
  rw [render, toList_toString_int, chars_ofWhole]
  simp

theorem isWrittenAsNumber_large {n : UInt64} (h : 2 ^ 63 ≤ n.toNat) :
    (large n h).IsWrittenAsNumber := by
  refine ⟨ofWhole false n.toNat, wellFormed_ofWhole _ _, ?_, toJson?_ofWhole_large h⟩
  rw [render, Nat.toString_eq_ofList_toDigits, String.toList_ofList, chars_ofWhole]
  rfl

theorem isWrittenAsNumber_float {x : Binary64} (h : x.isFinite = true) :
    (float x h).IsWrittenAsNumber := by
  obtain ⟨t, ht, hnegative, hparts, hchars⟩ := exists_render h
  refine ⟨t, ht, by rw [hchars, render], hnegative, hparts.imp (fun hp => ?_) fun he => ?_⟩
  · exact (Option.isSome_map ..).trans hp
  · exact (Option.isSome_map ..).trans he

theorem exists_cons_chars {t : NumberText} (h : t.WellFormed) :
    ∃ c cs, t.chars = c :: cs ∧ (c = '-' ∨ c.isDigit = true) := by
  rw [chars]
  cases t.negative with
  | true => exact ⟨'-', _, rfl, .inl rfl⟩
  | false =>
    obtain ⟨hne, hdigits⟩ := h.whole
    obtain ⟨c, cs, hcs⟩ := List.exists_cons_of_ne_nil hne
    exact ⟨c, _, by rw [hcs]; rfl, .inr (hdigits c (hcs ▸ List.mem_cons_self))⟩

theorem IsWrittenAsNumber.isRead {j : Json} (h : j.IsWrittenAsNumber) : j.IsRead := by
  obtain ⟨t, ht, hchars, hshows⟩ := h
  intro fuel rest hrest hfuel
  obtain ⟨c, cs, hcs, hc⟩ := exists_cons_chars ht
  have hpos : fuel ≠ 0 := by
    rw [← hchars, hcs, List.length_cons] at hfuel
    omega
  obtain ⟨fuel, rfl⟩ := Nat.exists_eq_succ_of_ne_zero hpos
  refine ⟨.number t.numeral, ?_, .number hshows⟩
  rw [← scanNumber_chars ht hrest, ← hchars, hcs]
  exact scanValue_eq_scanNumber hc fuel (cs ++ rest)

/-! ### The parts of an array and of an object -/

/-- The characters of the items of an array. -/
def itemsText (js : List Json) : List Char := (",".intercalate (renderItems js)).toList

/-- The characters of the entries of an object. -/
def entriesText (entries : List (String × Json)) : List Char :=
  (",".intercalate (renderEntries entries)).toList

theorem toList_render_array (items : List Json) :
    (array items).render.toList = '[' :: (itemsText items ++ [']']) := by
  rw [render, String.append_assoc, String.toList_append, String.toList_append]
  rfl

theorem toList_render_object (entries : List (String × Json)) :
    (object entries).render.toList = '{' :: (entriesText entries ++ ['}']) := by
  rw [render, String.append_assoc, String.toList_append, String.toList_append]
  rfl

theorem itemsText_singleton (j : Json) : itemsText [j] = j.render.toList :=
  congrArg String.toList String.intercalate_singleton

theorem itemsText_cons (j : Json) {js : List Json} (h : js ≠ []) :
    itemsText (j :: js) = j.render.toList ++ ',' :: itemsText js := by
  have hne : renderItems js ≠ [] := by
    cases js with
    | nil => exact absurd rfl h
    | cons j js => exact List.cons_ne_nil _ _
  rw [itemsText, renderItems, String.intercalate_cons_of_ne_nil hne, String.append_assoc,
    String.toList_append, String.toList_append]
  rfl

theorem toList_entry (key : String) (j : Json) :
    (quote key ++ ":" ++ j.render).toList = (quote key).toList ++ ':' :: j.render.toList := by
  rw [String.append_assoc, String.toList_append, String.toList_append]
  rfl

theorem entriesText_singleton (key : String) (j : Json) :
    entriesText [(key, j)] = (quote key).toList ++ ':' :: j.render.toList :=
  (congrArg String.toList String.intercalate_singleton).trans (toList_entry key j)

theorem entriesText_cons (key : String) (j : Json) {entries : List (String × Json)}
    (h : entries ≠ []) : entriesText ((key, j) :: entries) =
      (quote key).toList ++ ':' :: (j.render.toList ++ ',' :: entriesText entries) := by
  have hne : renderEntries entries ≠ [] := by
    cases entries with
    | nil => exact absurd rfl h
    | cons entry entries => exact List.cons_ne_nil _ _
  rw [entriesText, renderEntries, String.intercalate_cons_of_ne_nil hne, String.toList_append,
    String.toList_append, toList_entry, List.append_assoc, List.append_assoc]
  rfl

/-! ### The first character -/

/-- The text of a tree does not begin with a blank, nor with a closing bracket. -/
def IsOpened (j : Json) : Prop :=
  ∃ c cs, j.render.toList = c :: cs ∧ c ≠ ']' ∧ ∀ rest, skipBlanks (c :: rest) = c :: rest

theorem IsWrittenAsNumber.isOpened {j : Json} (h : j.IsWrittenAsNumber) : j.IsOpened := by
  obtain ⟨t, ht, hchars, _⟩ := h
  obtain ⟨c, cs, hcs, hc⟩ := exists_cons_chars ht
  refine ⟨c, cs, hchars.symm.trans hcs, ?_, skipBlanks_cons_of_number hc⟩
  rintro rfl
  exact absurd hc (by decide)

theorem isOpened (j : Json) : j.IsOpened := by
  cases j with
  | null => exact ⟨'n', _, rfl, by decide, fun _ => rfl⟩
  | bool b =>
    cases b with
    | true => exact ⟨'t', _, rfl, by decide, fun _ => rfl⟩
    | false => exact ⟨'f', _, rfl, by decide, fun _ => rfl⟩
  | int n => exact (isWrittenAsNumber_int n).isOpened
  | large n h => exact (isWrittenAsNumber_large h).isOpened
  | float x h => exact (isWrittenAsNumber_float h).isOpened
  | string s => exact ⟨'"', _, toList_quote s, by decide, fun _ => rfl⟩
  | array items => exact ⟨'[', _, toList_render_array items, by decide, fun _ => rfl⟩
  | object entries => exact ⟨'{', _, toList_render_object entries, by decide, fun _ => rfl⟩

/-! ### Trees -/

/-- The items of an array are read up to its closing bracket. -/
def ItemsAreRead (js : List Json) : Prop :=
  ∀ (fuel : Nat) (rest : List Char), (itemsText js).length < fuel →
    ∃ ss, scanItems fuel (itemsText js ++ ']' :: rest) = some (ss, rest) ∧
      List.Forall₂ JsonSource.Shows ss js

/-- The entries of an object are read up to its closing brace. -/
def EntriesAreRead (fields : List (String × Json)) : Prop :=
  ∀ (fuel : Nat) (rest : List Char), (entriesText fields).length < fuel →
    ∃ entries, scanEntries fuel (entriesText fields ++ '}' :: rest) = some (entries, rest) ∧
      entries.map (fun e => Piece.text? e.1) = fields.map (fun f => some f.1) ∧
      List.Forall₂ JsonSource.Shows (entries.map Prod.snd) (fields.map Prod.snd)

theorem ends_cons {c : Char} (h : c = ',' ∨ c = ']' ∨ c = '}') (rest : List Char) :
    Ends (c :: rest) := by
  rintro _ ⟨⟩
  exact h

theorem itemsAreRead_cons {j : Json} {js : List Json} (hj : j.IsRead)
    (hjs : js ≠ [] → ItemsAreRead js) : ItemsAreRead (j :: js) := by
  intro fuel rest hfuel
  obtain ⟨fuel, rfl⟩ := Nat.exists_eq_succ_of_ne_zero (Nat.ne_zero_of_lt hfuel)
  by_cases hnil : js = []
  · subst hnil
    rw [itemsText_singleton] at hfuel ⊢
    obtain ⟨s, hs, hshows⟩ := hj fuel (']' :: rest) (ends_cons (by simp) rest)
      (Nat.le_of_lt_succ hfuel)
    exact ⟨[s], scanItems_last hs, .cons hshows .nil⟩
  · rw [itemsText_cons j hnil, List.length_append, List.length_cons] at hfuel
    obtain ⟨s, hs, hshows⟩ := hj fuel (',' :: (itemsText js ++ ']' :: rest))
      (ends_cons (by simp) _) (by omega)
    obtain ⟨ss, hss, hall⟩ := hjs hnil fuel rest (by omega)
    rw [itemsText_cons j hnil, List.append_assoc]
    exact ⟨s :: ss, scanItems_more hs hss, .cons hshows hall⟩

theorem entriesAreRead_cons {key : String} {j : Json} {fields : List (String × Json)}
    (hj : j.IsRead) (hfields : fields ≠ [] → EntriesAreRead fields) :
    EntriesAreRead ((key, j) :: fields) := by
  intro fuel rest hfuel
  obtain ⟨fuel, rfl⟩ := Nat.exists_eq_succ_of_ne_zero (Nat.ne_zero_of_lt hfuel)
  by_cases hnil : fields = []
  · subst hnil
    rw [entriesText_singleton, List.length_append, List.length_cons] at hfuel
    obtain ⟨s, hs, hshows⟩ := hj fuel ('}' :: rest) (ends_cons (by simp) rest) (by omega)
    rw [entriesText_singleton, List.append_assoc]
    exact ⟨[(stringPieces key, s)], scanEntries_last hs,
      congrArg (· :: []) (text?_stringPieces key), .cons hshows .nil⟩
  · rw [entriesText_cons key j hnil] at hfuel
    simp only [List.length_append, List.length_cons] at hfuel
    obtain ⟨s, hs, hshows⟩ := hj fuel (',' :: (entriesText fields ++ '}' :: rest))
      (ends_cons (by simp) _) (by omega)
    obtain ⟨entries, hentries, hkeys, hall⟩ := hfields hnil fuel rest (by omega)
    rw [entriesText_cons key j hnil]
    refine ⟨(stringPieces key, s) :: entries, ?_, ?_, .cons hshows hall⟩
    · have hmore : scanEntries (fuel + 1) ((Json.quote key).toList ++ ':' :: _) =
          some ((stringPieces key, s) :: entries, rest) := scanEntries_more hs hentries
      simpa only [List.append_assoc, List.cons_append] using hmore
    · rw [List.map_cons, List.map_cons, text?_stringPieces, hkeys]

theorem isRead_null : null.IsRead := by
  intro fuel rest hrest hfuel
  cases fuel with
  | zero => cases hfuel
  | succ fuel => exact ⟨.null, rfl, .null⟩

theorem isRead_bool (b : Bool) : (bool b).IsRead := by
  intro fuel rest hrest hfuel
  cases fuel with
  | zero => cases b <;> cases hfuel
  | succ fuel =>
    refine ⟨.bool b, ?_, .bool b⟩
    cases b <;> rfl

theorem isRead_string (s : String) : (string s).IsRead := by
  intro fuel rest hrest hfuel
  cases fuel with
  | zero =>
    rw [render, toList_quote] at hfuel
    cases hfuel
  | succ fuel => exact ⟨_, scanValue_string fuel s rest, .string (text?_stringPieces s)⟩

/-- The first item begins what stands between the brackets. -/
theorem exists_itemsText_eq (j : Json) (js : List Json) :
    ∃ more, itemsText (j :: js) = j.render.toList ++ more := by
  by_cases h : js = []
  · subst h
    exact ⟨[], by rw [itemsText_singleton, List.append_nil]⟩
  · exact ⟨_, itemsText_cons j h⟩

theorem exists_entriesText_eq (key : String) (j : Json) (fields : List (String × Json)) :
    ∃ more, entriesText ((key, j) :: fields) = '"' :: more := by
  by_cases h : fields = []
  · subst h
    exact ⟨_, (entriesText_singleton key j).trans (by rw [toList_quote]; rfl)⟩
  · exact ⟨_, (entriesText_cons key j h).trans (by rw [toList_quote]; rfl)⟩

theorem isRead_array {items : List Json} (h : items ≠ [] → ItemsAreRead items) :
    (array items).IsRead := by
  intro fuel rest hrest hfuel
  rw [toList_render_array, List.length_cons, List.length_append] at hfuel
  obtain ⟨fuel, rfl⟩ := Nat.exists_eq_succ_of_ne_zero (Nat.ne_zero_of_lt hfuel)
  rw [toList_render_array, List.cons_append, List.append_assoc]
  cases items with
  | nil => exact ⟨.array [], rfl, .array .nil⟩
  | cons j js =>
    obtain ⟨ss, hss, hall⟩ := h (List.cons_ne_nil j js) fuel rest (by simp at hfuel; omega)
    obtain ⟨more, hmore⟩ := exists_itemsText_eq j js
    obtain ⟨c, cs, hcs, hc, hblank⟩ := isOpened j
    refine ⟨.array ss, ?_, .array hall⟩
    rw [hmore, hcs] at hss ⊢
    exact scanValue_array (hblank _) hc hss

theorem isRead_object {fields : List (String × Json)} (h : fields ≠ [] → EntriesAreRead fields) :
    (object fields).IsRead := by
  intro fuel rest hrest hfuel
  rw [toList_render_object, List.length_cons, List.length_append] at hfuel
  obtain ⟨fuel, rfl⟩ := Nat.exists_eq_succ_of_ne_zero (Nat.ne_zero_of_lt hfuel)
  rw [toList_render_object, List.cons_append, List.append_assoc]
  cases fields with
  | nil => exact ⟨.object [], rfl, .object rfl .nil⟩
  | cons field fields =>
    obtain ⟨key, j⟩ := field
    obtain ⟨entries, hentries, hkeys, hall⟩ :=
      h (List.cons_ne_nil _ fields) fuel rest (by simp at hfuel; omega)
    obtain ⟨more, hmore⟩ := exists_entriesText_eq key j fields
    refine ⟨.object entries, ?_, .object hkeys hall⟩
    rw [hmore] at hentries ⊢
    exact scanValue_object hentries

mutual

/-- **The text of a tree is read**, whatever follows it. -/
theorem isRead (j : Json) : j.IsRead := by
  cases j with
  | int n => exact (isWrittenAsNumber_int n).isRead
  | large n h => exact (isWrittenAsNumber_large h).isRead
  | float x h => exact (isWrittenAsNumber_float h).isRead
  | null => exact isRead_null
  | bool b => exact isRead_bool b
  | string s => exact isRead_string s
  | array items => exact isRead_array fun _ => itemsAreRead items ‹_›
  | object entries => exact isRead_object fun _ => entriesAreRead entries ‹_›
termination_by structural j

theorem itemsAreRead (js : List Json) (h : js ≠ []) : ItemsAreRead js := by
  cases js with
  | nil => exact absurd rfl h
  | cons j js => exact itemsAreRead_cons (isRead j) (itemsAreRead js)
termination_by structural js

theorem entriesAreRead (fields : List (String × Json)) (h : fields ≠ []) :
    EntriesAreRead fields := by
  cases fields with
  | nil => exact absurd rfl h
  | cons field fields =>
    obtain ⟨key, j⟩ := field
    exact entriesAreRead_cons (isRead j) (entriesAreRead fields)
termination_by structural fields

end

/-- **What is written is JSON**: the text of a tree is a JSON text, and its parts show the tree. -/
theorem exists_parse_render (j : Json) :
    ∃ s, JsonSource.parse? j.render = some s ∧ s.Shows j := by
  obtain ⟨s, hs, hshows⟩ := isRead j (j.render.toList.length + 1) [] nofun (Nat.le_succ _)
  rw [List.append_nil] at hs
  refine ⟨s, ?_, hshows⟩
  rw [JsonSource.parse?]
  simp only [hs]
  rfl

end Json

end StructuralMatching
