/-
Checking a pattern file against matching values with it.

Both commands read the same file, and come to the same matcher or to the same error.  One of them
says how many values the matcher binds, which is known without a value; the other one matches a
value and shows what is bound.

* `TextFormats.IsJson` — some text is read as a tree, and what is written is JSON;
* `CommandLine.checked`, `CommandLine.matched` — what the two commands answer;
* `CommandLine.validLine_injective` — how many values are bound can be read off from the answer;
* `CommandLine.checked_agrees_with_matched` — the two commands agree on every file.

Design notes: a file is given by what reading it leads to, so one theorem speaks of files that are
missing, of texts that describe no pattern, and of patterns that do not compile.  Whatever is wrong
with a file is found out before the arguments after its name are looked at.  How texts are read as
trees makes no difference to any of this, so the readers are arbitrary.
-/
import StructuralMatching.CommandLine
import StructuralMatching.Proofs.Json.Written
import StructuralMatching.Proofs.Matching.Contract

namespace StructuralMatching

/-- What is known of the formats: there is a JSON text, and the text that is written for a tree is
one whose parts show the tree. -/
structure TextFormats.IsJson (F : TextFormats) : Prop where
  reads : ∃ text j, F.value text = .ok j
  writes : ∀ j, ∃ s, JsonSource.parse? (F.write j) = some s ∧ s.Shows j

theorem TextFormats.value_plain_eq_ok_iff {text : String} {j : Json} :
    plain.value text = .ok j ↔ Json.parse? text = some j := by
  show orSay "not a tree" (Json.parse? text) = .ok j ↔ _
  cases Json.parse? text <;> simp [orSay]

theorem TextFormats.plain_isJson : plain.IsJson :=
  ⟨⟨"null", .null, value_plain_eq_ok_iff.mpr rfl⟩, Json.exists_parse_render⟩

/-- The text of an array has as many items as the array, and they show what it holds. -/
theorem TextFormats.IsJson.writes_array {F : TextFormats} (hF : F.IsJson) (js : List Json) :
    ∃ items, JsonSource.parse? (F.write (.array js)) = some (.array items) ∧
      items.length = js.length ∧ List.Forall₂ JsonSource.Shows items js := by
  obtain ⟨s, hs, hshows⟩ := hF.writes (.array js)
  cases hshows with
  | number h => exact h.elim
  | array h => exact ⟨_, hs, h.length_eq, h⟩

namespace CommandLine

/-! ### The number in the answer -/

/-- The digits of a number end where a blank follows. -/
theorem takeWhile_isDigit_toString (n : Nat) (rest : List Char) :
    ((toString n).toList ++ ' ' :: rest).takeWhile Char.isDigit = Nat.toDigits 10 n := by
  rw [Nat.toString_eq_ofList_toDigits, String.toList_ofList,
    List.takeWhile_append_of_pos fun c hc => Nat.isDigit_of_mem_toDigits (by decide) (by decide) hc,
    List.takeWhile_cons_of_neg (by decide), List.append_nil]

theorem exists_validLine_eq (n : Nat) :
    ∃ rest, validLine n = "Pattern valid (" ++ (toString n ++ (" " ++ rest)) := by
  refine ⟨"binding" ++ ((if n = 1 then "" else "s") ++ ")"), ?_⟩
  have hblank : " binding" = " " ++ "binding" := by decide
  rw [← @String.append_assoc " ", ← hblank]
  show "Pattern valid (" ++ toString n ++ " binding" ++ (if n = 1 then "" else "s") ++ ")" = _
  rw [String.append_assoc, String.append_assoc, String.append_assoc]

/-- How many values are bound can be read off from the answer. -/
theorem validLine_injective : Function.Injective validLine := by
  intro a b h
  obtain ⟨resta, ha⟩ := exists_validLine_eq a
  obtain ⟨restb, hb⟩ := exists_validLine_eq b
  rw [ha, hb, String.append_right_inj] at h
  have hdigits := congrArg (fun line => line.toList.takeWhile Char.isDigit) h
  simp only [String.toList_append] at hdigits
  have hsame : Nat.toDigits 10 a = Nat.toDigits 10 b :=
    (takeWhile_isDigit_toString a _).symm.trans
      (hdigits.trans (takeWhile_isDigit_toString b _))
  calc
    a = Nat.ofDigitChars 10 (Nat.toDigits 10 a) 0 := Nat.ofDigitChars_ten_toDigits.symm
    _ = Nat.ofDigitChars 10 (Nat.toDigits 10 b) 0 := by rw [hsame]
    _ = b := Nat.ofDigitChars_ten_toDigits

/-! ### The two commands -/

section

variable (F : TextFormats) (read : String → Except ReadFailure String) (path : String)

/-- What checking a file answers. -/
def checked : Outcome := Id.run (answer F (m := Id) read ["check", path])

/-- What matching with a file answers, given the arguments after its name. -/
def matched (args : List String) : Outcome :=
  Id.run (answer F (m := Id) read ("match" :: path :: args))

variable {F read path}

theorem checked_of_error {e : CommandFailure} (h : loadPattern F path (read path) = .error e) :
    checked F read path = ⟨1, "", s!"error: {e.message}\n"⟩ := by
  show outcomeOf ((loadPattern F path (read path)).bind _) = _
  rw [h]
  rfl

/-- The arguments after the name are never looked at if there is something wrong with the file. -/
theorem matched_of_error {e : CommandFailure} (h : loadPattern F path (read path) = .error e)
    (args : List String) : matched F read path args = ⟨1, "", s!"error: {e.message}\n"⟩ := by
  show outcomeOf ((loadPattern F path (read path)).bind _) = _
  rw [h]
  rfl

theorem checked_of_ok {m : Matcher} (h : loadPattern F path (read path) = .ok m) :
    checked F read path = ⟨0, validLine m.bindingCount ++ "\n", ""⟩ := by
  show outcomeOf ((loadPattern F path (read path)).bind _) = _
  rw [h]
  rfl

theorem matched_of_ok {m : Matcher} (h : loadPattern F path (read path) = .ok m) {text : String}
    {j : Json} (hj : F.value text = .ok j) :
    matched F read path ["--value", text] = ⟨0, showMatch F m (.ofJson j) ++ "\n", ""⟩ := by
  show outcomeOf ((loadPattern F path (read path)).bind _) = _
  rw [h]
  show outcomeOf ((valueOfArgs F ["--value", text]).map (showMatch F m)) = _
  rw [valueOfArgs, hj]
  rfl

/-- The number that the check says is that of the values the matcher binds. -/
theorem checked_eq_iff {m : Matcher} (h : loadPattern F path (read path) = .ok m) {n : Nat} :
    checked F read path = ⟨0, validLine n ++ "\n", ""⟩ ↔ n = m.bindingCount := by
  rw [checked_of_ok h]
  constructor
  · intro heq
    have hline := congrArg Outcome.stdout heq
    exact (validLine_injective (String.append_left_inj _ |>.mp hline)).symm
  · rintro rfl
    rfl

/-- The line says what the value binds, as a JSON array of `n` items. -/
structure IsBindingLine (F : TextFormats) (n : Nat) (bindings : List Value) (line : String) :
    Prop where
  length_eq : bindings.length = n
  line_eq : line = F.write (.array (bindings.map (Value.toJson .start)))
  reads : ∃ items, JsonSource.parse? line = some (.array items) ∧ items.length = n ∧
    List.Forall₂ JsonSource.Shows items (bindings.map (Value.toJson .start))

/-- A value either does not match, or as many values are bound as the matcher binds at all. -/
theorem matched_or_not (hF : F.IsJson) {m : Matcher} (h : loadPattern F path (read path) = .ok m)
    {text : String} {j : Json} (hj : F.value text = .ok j) :
    (m.bind? .start (.ofJson j) = none ∧
      matched F read path ["--value", text] = ⟨0, "(no match)\n", ""⟩) ∨
    ∃ bindings line, m.bind? .start (.ofJson j) = some bindings ∧
      matched F read path ["--value", text] = ⟨0, line ++ "\n", ""⟩ ∧
        IsBindingLine F m.bindingCount bindings line := by
  have hm := matched_of_ok h hj
  rw [showMatch] at hm
  cases hb : m.bind? .start (.ofJson j) with
  | none =>
    rw [hb] at hm
    exact .inl ⟨rfl, hm⟩
  | some bindings =>
    rw [hb] at hm
    have hlength := Matcher.length_of_bind? hb
    obtain ⟨items, hitems, hitemsLength, hall⟩ :=
      hF.writes_array (bindings.map (Value.toJson .start))
    rw [List.length_map, hlength] at hitemsLength
    exact .inr ⟨bindings, _, rfl, hm, hlength, rfl, items, hitems, hitemsLength, hall⟩

/-- **Checking a file and matching with it agree**, however texts are read.  A file that is in order
binds as many values as the check says, whatever value is matched with it, and the line that shows
them is a JSON array of so many items; a file that is not in order is refused with the same words,
whatever the arguments after its name are. -/
theorem checked_agrees_with_matched (F : TextFormats) (hF : F.IsJson)
    (read : String → Except ReadFailure String) (path : String) :
    ((checked F read path).exitCode = 0 ↔
      ∃ n, checked F read path = ⟨0, validLine n ++ "\n", ""⟩) ∧
    ((∃ n, checked F read path = ⟨0, validLine n ++ "\n", ""⟩) ↔
      ∀ text j, F.value text = .ok j →
        (matched F read path ["--value", text]).exitCode = 0) ∧
    (∀ n, checked F read path = ⟨0, validLine n ++ "\n", ""⟩ →
      ∃ m, loadPattern F path (read path) = .ok m ∧
        ∀ text j, F.value text = .ok j →
          (m.bind? .start (.ofJson j) = none ∧
            matched F read path ["--value", text] = ⟨0, "(no match)\n", ""⟩) ∨
          ∃ bindings line, m.bind? .start (.ofJson j) = some bindings ∧
            matched F read path ["--value", text] = ⟨0, line ++ "\n", ""⟩ ∧
              IsBindingLine F n bindings line) ∧
    ((checked F read path).exitCode ≠ 0 →
      ∃ line : String, checked F read path = ⟨1, "", s!"error: {line}\n"⟩ ∧
        ∀ args, matched F read path args = checked F read path) := by
  cases hload : loadPattern F path (read path) with
  | error e =>
    have hc := checked_of_error hload
    have hm := matched_of_error hload
    refine ⟨?_, ?_, ?_, ?_⟩
    · simp [hc]
    · -- There is a JSON text, and matching its value fails too.
      refine iff_of_false (by simp [hc]) fun hall => ?_
      obtain ⟨text, j, hj⟩ := hF.reads
      have hzero := hall text j hj
      simp [hm] at hzero
    · intro n hn
      simp [hc] at hn
    · intro _
      exact ⟨e.message, hc, fun args => by rw [hm, hc]⟩
  | ok m =>
    have hc := checked_of_ok hload
    refine ⟨?_, ?_, ?_, ?_⟩
    · exact iff_of_true (by rw [hc]) ⟨_, hc⟩
    · refine iff_of_true ⟨_, hc⟩ fun text j hj => ?_
      rw [matched_of_ok hload hj]
    · intro n hn
      obtain rfl := (checked_eq_iff hload).mp hn
      exact ⟨m, rfl, fun text j hj => matched_or_not hF hload hj⟩
    · intro hne
      rw [hc] at hne
      exact absurd rfl hne

end

/-- Two pattern files, for lists that are not empty. -/
def listFile : String → Except ReadFailure String
  | "list.json" => .ok "\x7b\"type\": \"head_tail\"\x7d"
  | "list.yaml" => .ok "type: head_tail\n"
  | _ => .error .notFound

/-- A list of two items is taken apart, whichever of the formats its pattern is written in, and a
file that is missing is missed by both commands. -/
theorem checked_agrees_with_matched_list :
    TextFormats.plain.IsJson ∧
    (∀ path ∈ ["list.json", "list.yaml"],
      checked .plain listFile path = ⟨0, validLine 2 ++ "\n", ""⟩ ∧
      ∃ m j bindings line, loadPattern .plain path (listFile path) = .ok m ∧
        TextFormats.plain.value "[1, true]" = .ok j ∧
        m.bind? .start (.ofJson j) = some bindings ∧
        matched .plain listFile path ["--value", "[1, true]"] = ⟨0, line ++ "\n", ""⟩ ∧
        IsBindingLine .plain 2 bindings line ∧ line = "[1,[true]]") ∧
    (checked .plain listFile "none").exitCode ≠ 0 ∧
      matched .plain listFile "none" ["x"] = checked .plain listFile "none" := by
  refine ⟨TextFormats.plain_isJson, fun path hpath => ?_, ?_⟩
  · have hboth : checked .plain listFile path = ⟨0, validLine 2 ++ "\n", ""⟩ ∧
        matched .plain listFile path ["--value", "[1, true]"] = ⟨0, "[1,[true]]\n", ""⟩ := by
      revert path
      decide +kernel
    obtain ⟨hvalid, hprinted⟩ := hboth
    obtain ⟨j, hparse⟩ : ∃ j, Json.parse? "[1, true]" = some j :=
      Option.isSome_iff_exists.mp (by decide +kernel)
    have hj := TextFormats.value_plain_eq_ok_iff.mpr hparse
    obtain ⟨_, _, hvalues, _⟩ :=
      checked_agrees_with_matched .plain TextFormats.plain_isJson listFile path
    obtain ⟨m, hm, hall⟩ := hvalues 2 hvalid
    refine ⟨hvalid, m, j, ?_⟩
    rcases hall _ j hj with ⟨_, hno⟩ | ⟨bindings, line, hbind, hyes, hline⟩
    · -- What the program prints is not that there is no match.
      have hsame := congrArg Outcome.stdout (hprinted.symm.trans hno)
      exact absurd hsame (by decide)
    · have hsame : "[1,[true]]" ++ "\n" = line ++ "\n" :=
        congrArg Outcome.stdout (hprinted.symm.trans hyes)
      exact ⟨bindings, line, hm, hj, hbind, hyes, hline,
        (String.append_left_inj "\n" |>.mp hsame).symm⟩
  · have hmissing : (checked .plain listFile "none").exitCode ≠ 0 := by decide +kernel
    obtain ⟨_, _, _, hrefused⟩ :=
      checked_agrees_with_matched .plain TextFormats.plain_isJson listFile "none"
    obtain ⟨_, hline⟩ := hrefused hmissing
    exact ⟨hmissing, hline.2 ["x"]⟩

end CommandLine

end StructuralMatching
