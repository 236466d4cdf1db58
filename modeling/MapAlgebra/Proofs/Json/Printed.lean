import MapAlgebra.Json.Reader
import Mathlib.Data.List.DropRight
import Mathlib.Data.List.Forall2
import Mathlib.Tactic.ByContra
import Mathlib.Tactic.IntervalCases

namespace MapAlgebra.Json

-- What can stand after a value: nothing that a number could go on with.
def Stops (rest : List Char) : Prop :=
  ∀ c ∈ rest.head?, c.isDigit = false ∧ c ≠ '.' ∧ c ≠ 'e' ∧ c ≠ 'E'

-- A text that is read as a value whatever stands after it. Blanks at its end may be left over.
def Reads (cs : List Char) (json : Json) : Prop :=
  ∀ fuel rest, cs.length < fuel → Stops rest →
    ∃ left, Reader.value fuel (cs ++ rest) = some (json, left) ∧ Reader.skip left = Reader.skip rest

namespace Reader

variable {cs rest out : List Char}

theorem takeWhile_stop {p : Char → Bool} (h : ∀ c ∈ rest.head?, p c = false) (cs : List Char) :
    (cs ++ rest).takeWhile p = cs.takeWhile p ∧ (cs ++ rest).dropWhile p = cs.dropWhile p ++ rest := by
  induction cs with
  | nil =>
      cases rest with
      | nil => exact ⟨rfl, rfl⟩
      | cons c rest =>
          have hc : p c = false := h c rfl
          simp [hc]
  | cons c cs ih =>
      simp only [List.cons_append, List.takeWhile_cons, List.dropWhile_cons, ih]
      split <;> simp

theorem fraction_append {places : List Char} (hstops : Stops rest)
    (h : fraction cs = some (places, out)) : fraction (cs ++ rest) = some (places, out ++ rest) := by
  have hdigits := takeWhile_stop fun c hc => (hstops c hc).1
  cases cs with
  | nil =>
      cases h
      cases rest with
      | nil => rfl
      | cons c rest =>
          have hc := (hstops c rfl).2.1
          simp only [List.nil_append, fraction]
          split
          · rename_i heq
            cases heq
            exact absurd rfl hc
          · rfl
  | cons c cs =>
      simp only [List.cons_append, fraction] at h ⊢
      split at h
      · rename_i heq
        cases heq
        simp only [hdigits] at h ⊢
        split at h
        · cases h
        · rename_i hsome
          cases h
          simp only [hsome, Bool.false_eq_true, if_false]
      · rename_i hc
        cases h
        split
        · rename_i heq
          cases heq
          exact absurd rfl (hc _)
        · rfl

theorem unsignedExponent_append {negative : Bool} {power : Int} (hstops : Stops rest)
    (h : unsignedExponent negative cs = some (power, out)) :
    unsignedExponent negative (cs ++ rest) = some (power, out ++ rest) := by
  have hdigits := takeWhile_stop fun c hc => (hstops c hc).1
  simp only [unsignedExponent, hdigits] at h ⊢
  split at h
  · cases h
  · rename_i hsome
    cases h
    simp only [hsome, Bool.false_eq_true, if_false]

theorem exponent_append {power : Option Int} (hstops : Stops rest)
    (h : exponent cs = some (power, out)) : exponent (cs ++ rest) = some (power, out ++ rest) := by
  have hunsigned : ∀ {negative : Bool} {digits : List Char},
      (unsignedExponent negative digits >>= fun found => some (some found.1, found.2)) =
        some (power, out) →
      (unsignedExponent negative (digits ++ rest) >>= fun found => some (some found.1, found.2)) =
        some (power, out ++ rest) := by
    intro negative digits hdigits
    obtain ⟨found, hfound, hout⟩ := Option.bind_eq_some_iff.mp hdigits
    cases hout
    exact Option.bind_eq_some_iff.mpr ⟨_, unsignedExponent_append hstops hfound, rfl⟩
  cases cs with
  | nil =>
      cases h
      cases rest with
      | nil => rfl
      | cons c rest =>
          obtain ⟨_, _, hlower, hupper⟩ := hstops c rfl
          simp only [List.nil_append, exponent, hlower, hupper, or_self, if_false]
  | cons e cs =>
      simp only [List.cons_append, exponent] at h ⊢
      split at h
      · rename_i he
        rw [if_pos he]
        cases cs with
        | nil => cases h
        | cons c cs =>
            simp only [List.cons_append] at h ⊢
            split at h
            · rename_i heq
              cases heq
              exact hunsigned h
            · rename_i heq
              cases heq
              exact hunsigned h
            · rename_i hminus hplus
              split
              · rename_i heq
                cases heq
                exact absurd rfl (hminus _)
              · rename_i heq
                cases heq
                exact absurd rfl (hplus _)
              · exact hunsigned h
      · rename_i he
        cases h
        rw [if_neg he]
        rfl

-- What comes after the sign of a number.
def magnitude (negative : Bool) (cs : List Char) : Option (Numeral × List Char) :=
  let whole := cs.takeWhile Char.isDigit
  let rest := cs.dropWhile Char.isDigit
  match whole with
  | [] => none
  | '0' :: _ :: _ => none
  | _ => do
      let (places, rest) ← fraction rest
      let (power, rest) ← exponent rest
      return (⟨negative, digitsOf (whole ++ places), power.getD 0 - places.length,
        places.isEmpty && power.isNone⟩, rest)

theorem numeral_negative (cs : List Char) : numeral ('-' :: cs) = magnitude true cs := rfl

theorem numeral_of_ne {c : Char} (hc : c ≠ '-') (cs : List Char) :
    numeral (c :: cs) = magnitude false (c :: cs) := by
  unfold numeral
  split
  · rename_i heq
    split at heq
    · rename_i hminus
      cases hminus
      exact absurd rfl hc
    · cases heq
      rfl

theorem magnitude_append {negative : Bool} {found : Numeral} (hstops : Stops rest)
    (h : magnitude negative cs = some (found, out)) :
    magnitude negative (cs ++ rest) = some (found, out ++ rest) := by
  have hdigits := takeWhile_stop fun c hc => (hstops c hc).1
  simp only [magnitude, hdigits] at h ⊢
  split at h
  · cases h
  · cases h
  · obtain ⟨⟨places, between⟩, hplaces, h⟩ := Option.bind_eq_some_iff.mp h
    obtain ⟨⟨power, left⟩, hpower, h⟩ := Option.bind_eq_some_iff.mp h
    cases h
    exact Option.bind_eq_some_iff.mpr ⟨_, fraction_append hstops hplaces,
      Option.bind_eq_some_iff.mpr ⟨_, exponent_append hstops hpower, rfl⟩⟩

theorem numeral_append {found : Numeral} (hstops : Stops rest)
    (h : numeral cs = some (found, out)) : numeral (cs ++ rest) = some (found, out ++ rest) := by
  cases cs with
  | nil => cases h
  | cons c cs =>
      rw [List.cons_append]
      by_cases hc : c = '-'
      · subst hc
        rw [numeral_negative] at h ⊢
        exact magnitude_append hstops h
      · rw [numeral_of_ne hc] at h ⊢
        exact magnitude_append hstops h

-- A number begins with its sign or with a digit.
theorem numeral_head {found : Numeral} (h : numeral cs = some (found, out)) :
    ∃ c tail, cs = c :: tail ∧ (c = '-' ∨ c.isDigit = true) := by
  cases cs with
  | nil => cases h
  | cons c cs =>
      refine ⟨c, cs, rfl, ?_⟩
      by_contra hneither
      rw [not_or, Bool.not_eq_true] at hneither
      rw [numeral_of_ne hneither.1, magnitude] at h
      simp only [List.takeWhile_cons, hneither.2, Bool.false_eq_true, if_false] at h
      cases h

-- A text whose first character can begin nothing but a number.
theorem value_numeral {found : Numeral} (h : numeral (skip cs) = some (found, out)) (fuel : Nat) :
    value (fuel + 1) cs = some (.number found, out) := by
  obtain ⟨c, tail, hskip, hhead⟩ := numeral_head h
  rw [hskip] at h
  have hne : ∀ d : Char, d ≠ '-' → d.isDigit = false → c ≠ d := by
    rintro d hd hdigit rfl
    obtain hminus | hc := hhead
    · exact hd hminus
    · rw [hdigit] at hc
      cases hc
  unfold value
  rw [hskip]
  split
  case h_7 =>
    rw [h]
    rfl
  all_goals
    rename_i heq
    cases heq
    exact absurd rfl (hne _ (by decide) (by decide))

theorem numeral_of_value {found : Numeral} {fuel : Nat}
    (h : value (fuel + 1) cs = some (.number found, out)) : numeral (skip cs) = some (found, out) := by
  unfold value at h
  split at h
  case h_1 =>
    obtain ⟨_, _, h⟩ := Option.bind_eq_some_iff.mp h
    cases h
  case h_4 | h_5 | h_6 =>
    unfold keyword at h
    split at h <;> cases h
  case h_7 =>
    obtain ⟨⟨numeral, left⟩, hnumeral, h⟩ := Option.bind_eq_some_iff.mp h
    cases h
    exact hnumeral
  all_goals
    split at h
    · cases h
    · obtain ⟨_, _, h⟩ := Option.bind_eq_some_iff.mp h
      cases h

-- Nothing begins with a closing mark.
theorem value_closing {fuel : Nat} {found : Json × List Char} (h : value fuel cs = some found)
    {c : Char} {tail : List Char} (hskip : skip cs = c :: tail) : c ≠ ']' ∧ c ≠ '\x7d' := by
  cases fuel with
  | zero => cases h
  | succ fuel =>
      constructor
      all_goals
        rintro rfl
        unfold value at h
        rw [hskip] at h
        cases h

theorem skip_append (cs rest : List Char) :
    skip (cs ++ rest) = if (skip cs).isEmpty then skip rest else skip cs ++ rest :=
  List.dropWhile_append

-- Blanks before a value do not matter.
theorem skip_skip (cs : List Char) : skip (skip cs) = skip cs := List.dropWhile_idempotent _ _

theorem value_skip (fuel : Nat) (cs : List Char) : value fuel (skip cs) = value fuel cs := by
  cases fuel with
  | zero => rfl
  | succ fuel => rw [value, value, skip_skip]

theorem items_skip (fuel : Nat) (cs : List Char) : items fuel (skip cs) = items fuel cs := by
  cases fuel with
  | zero => rfl
  | succ fuel => rw [items, items, value_skip]

theorem value_list {fuel : Nat} {found : List Json} (h : items fuel cs = some (found, rest)) :
    value (fuel + 1) ('[' :: cs) = some (.array found, rest) := by
  have hopens : skip ('[' :: cs) = '[' :: cs := rfl
  rw [value, hopens]
  split
  case h_2 tail heq =>
    obtain rfl : cs = tail := (List.cons.inj heq).2
    split
    · rename_i hskip
      cases fuel with
      | zero => cases h
      | succ fuel =>
          rw [items] at h
          obtain ⟨first, hfirst, _⟩ := Option.bind_eq_some_iff.mp h
          exact absurd rfl (value_closing hfirst hskip).1
    · rw [items_skip, h]
      rfl
  case h_7 hlist _ _ _ _ => exact absurd rfl (hlist cs)
  all_goals
    rename_i heq
    cases heq

theorem value_record {fuel : Nat} {found : List (Option String × Json)}
    (h : fields fuel cs = some (found, rest)) :
    value (fuel + 1) ('\x7b' :: cs) = some (.object found, rest) := by
  have hopens : skip ('\x7b' :: cs) = '\x7b' :: cs := rfl
  rw [value, hopens]
  split
  case h_3 tail heq =>
    obtain rfl : cs = tail := (List.cons.inj heq).2
    cases fuel with
    | zero => cases h
    | succ fuel =>
        split
        · rename_i hskip
          rw [fields, hskip] at h
          cases h
        · have hskipped : fields (fuel + 1) (skip cs) = fields (fuel + 1) cs := by
            rw [fields, fields, skip_skip]
          rw [hskipped, h]
          rfl
  case h_7 hrecord _ _ _ => exact absurd rfl (hrecord cs)
  all_goals
    rename_i heq
    cases heq

-- A character of a string that is written as it is.
def IsPlain (c : Char) : Prop := c ≠ '"' ∧ c ≠ '\\' ∧ 32 ≤ c.toNat

instance : DecidablePred IsPlain := fun c => inferInstanceAs (Decidable (c ≠ '"' ∧ _))

theorem plain_of_all {cs : List Char} (h : cs.all (IsPlain ·) = true) : ∀ c ∈ cs, IsPlain c :=
  fun c hc => of_decide_eq_true (List.all_eq_true.mp h c hc)

theorem stringBody_plain {fuel : Nat} (seen : List Char) (hplain : ∀ c ∈ cs, IsPlain c)
    (hfuel : cs.length < fuel) (rest : List Char) :
    stringBody fuel (cs ++ '"' :: rest) seen true =
      some (some (String.ofList (seen.reverse ++ cs)), rest) := by
  induction cs generalizing fuel seen with
  | nil =>
      obtain ⟨fuel, rfl⟩ : ∃ less, fuel = less + 1 := ⟨fuel - 1, by simp at hfuel; omega⟩
      rw [List.nil_append, List.append_nil]
      rfl
  | cons c cs ih =>
      obtain ⟨fuel, rfl⟩ : ∃ less, fuel = less + 1 := ⟨fuel - 1, by omega⟩
      obtain ⟨hquote, hslash, hprinted⟩ := hplain c List.mem_cons_self
      have hless : cs.length < fuel := by
        rw [List.length_cons] at hfuel
        omega
      have hrest := ih (c :: seen) (fun other hother => hplain other (List.mem_cons_of_mem _ hother))
        hless
      have hshown : ¬ (c = '\\' ∨ c.toNat < 32) := by
        rintro (hc | hc)
        · exact hslash hc
        · omega
      rw [List.cons_append, stringBody]
      · rw [if_neg hshown, hrest, List.reverse_cons, List.append_assoc]
        rfl
      · exact hquote
      · exact fun _ hc => absurd hc hslash
      · exact fun _ _ hc => absurd hc hslash

end Reader

open Reader (skip)

-- The empty text stops everything, and so does each mark that can stand after a value.
theorem stops_nil : Stops [] := nofun

theorem stops_cons {c : Char} (hc : c = ',' ∨ c = ']' ∨ c = '\x7d') (rest : List Char) :
    Stops (c :: rest) := by
  intro d hd
  cases hd
  obtain rfl | rfl | rfl := hc <;> decide

theorem skip_mark {c : Char} (hc : c = ',' ∨ c = ']' ∨ c = '\x7d' ∨ c = '"' ∨ c = ':')
    (rest : List Char) : skip (c :: rest) = c :: rest := by
  obtain rfl | rfl | rfl | rfl | rfl := hc <;> rfl

-- A whole text that is a value is read as that value.
theorem Reads.read {text : String} {json : Json} (h : Reads text.toList json) :
    read text = some json := by
  obtain ⟨left, hvalue, hleft⟩ := h (text.toList.length + 1) [] (Nat.lt_succ_self _) stops_nil
  rw [List.append_nil] at hvalue
  refine Option.bind_eq_some_iff.mpr ⟨_, hvalue, ?_⟩
  simp only [hleft]
  rfl

-- A number that is read from a whole text is read from it whatever comes after.
theorem reads_number {text : String} {numeral : Numeral} (h : read text = some (.number numeral)) :
    Reads text.toList (.number numeral) := by
  obtain ⟨⟨json, out⟩, hvalue, h⟩ := Option.bind_eq_some_iff.mp h
  dsimp only at h
  split at h
  · rename_i hempty
    cases h
    intro fuel rest hfuel hstops
    obtain ⟨fuel, rfl⟩ : ∃ less, fuel = less + 1 := ⟨fuel - 1, by omega⟩
    have hnumeral := Reader.numeral_of_value hvalue
    obtain ⟨c, tail, hskip, _⟩ := Reader.numeral_head hnumeral
    have hboth : skip (text.toList ++ rest) = skip text.toList ++ rest := by
      rw [Reader.skip_append, if_neg (by simp [hskip])]
    refine ⟨out ++ rest, Reader.value_numeral ?_ fuel, ?_⟩
    · rw [hboth]
      exact Reader.numeral_append hstops hnumeral
    · rw [Reader.skip_append, if_pos hempty]
  · cases h

theorem reads_null : Reads "null".toList .null := by
  intro fuel rest hfuel _
  obtain ⟨fuel, rfl⟩ : ∃ less, fuel = less + 1 := ⟨fuel - 1, by omega⟩
  exact ⟨rest, rfl, rfl⟩

-- Text without marks and controls is quoted as it is.
theorem quote_plain {text : String} (hplain : ∀ c ∈ text.toList, Reader.IsPlain c) :
    (quote text).toList = '"' :: (text.toList ++ ['"']) := by
  have hescape : ∀ c ∈ text.toList, (escapeChar c).toList = [c] := by
    intro c hc
    obtain ⟨hquote, hslash, hprinted⟩ := hplain c hc
    have hcontrol : ∀ d : Char, d.toNat < 32 → c ≠ d := by
      rintro d hd rfl
      omega
    have hlower : c.toNat ≠ 8 ∧ c.toNat ≠ 12 ∧ ¬ c.toNat < 32 := by omega
    rw [escapeChar, if_neg hquote, if_neg hslash, if_neg (hcontrol _ (by decide)),
      if_neg (hcontrol _ (by decide)), if_neg (hcontrol _ (by decide)), if_neg hlower.1,
      if_neg hlower.2.1, if_neg hlower.2.2, String.toList_singleton]
  have hinside : (String.join (text.toList.map escapeChar)).toList = text.toList := by
    rw [String.toList_join, List.flatMap_map, List.flatMap_congr hescape, List.flatMap_singleton']
  rw [quote, String.toList_append, String.toList_append, hinside]
  rfl

theorem string_plain {text : String} (hplain : ∀ c ∈ text.toList, Reader.IsPlain c)
    (rest : List Char) : Reader.string (text.toList ++ '"' :: rest) = some (some text, rest) := by
  refine (Reader.stringBody_plain [] hplain ?_ rest).trans ?_
  · rw [List.length_append]
    omega
  · rw [List.reverse_nil, List.nil_append, String.ofList_toList]

theorem reads_quote {text : String} (hplain : ∀ c ∈ text.toList, Reader.IsPlain c) :
    Reads (quote text).toList (.string (some text)) := by
  intro fuel rest hfuel _
  obtain ⟨fuel, rfl⟩ : ∃ less, fuel = less + 1 := ⟨fuel - 1, by omega⟩
  refine ⟨rest, ?_, rfl⟩
  rw [quote_plain hplain, List.cons_append, List.append_assoc, Reader.value]
  show (Reader.string (text.toList ++ '"' :: rest) >>= _) = _
  rw [string_plain hplain]
  rfl

-- The texts of a list with commas between them.
def joined (texts : List String) : List Char := [','].intercalate (texts.map String.toList)

theorem joined_cons (text next : String) (texts : List String) :
    joined (text :: next :: texts) = text.toList ++ ',' :: joined (next :: texts) := by
  simp [joined, List.intercalate]

theorem items_read {texts : List String} {jsons : List Json}
    (h : List.Forall₂ (fun text json => Reads text.toList json) texts jsons) (hsome : texts ≠ [])
    {fuel : Nat} (hfuel : (joined texts).length + 1 < fuel) (rest : List Char) :
    Reader.items fuel (joined texts ++ ']' :: rest) = some (jsons, rest) := by
  induction h generalizing fuel with
  | nil => exact absurd rfl hsome
  | @cons text json texts jsons hfirst hrest ih =>
      obtain ⟨fuel, rfl⟩ : ∃ less, fuel = less + 1 := ⟨fuel - 1, by omega⟩
      cases hrest with
      | nil =>
          have hjoined : joined [text] = text.toList := by simp [joined, List.intercalate]
          rw [hjoined] at hfuel ⊢
          obtain ⟨left, hvalue, hleft⟩ := hfirst fuel (']' :: rest) (by omega) (stops_cons (by simp) rest)
          rw [skip_mark (by simp)] at hleft
          rw [Reader.items, hvalue]
          simp only [Option.bind_eq_bind, Option.bind_some, hleft]
          rfl
      | @cons next _ texts _ hnext hmore =>
          rw [joined_cons] at hfuel ⊢
          rw [List.length_append, List.length_cons] at hfuel
          rw [List.append_assoc, List.cons_append]
          obtain ⟨left, hvalue, hleft⟩ := hfirst fuel (',' :: (joined (next :: texts) ++ ']' :: rest))
            (by omega) (stops_cons (by simp) _)
          rw [skip_mark (by simp)] at hleft
          have hless : (joined (next :: texts)).length + 1 < fuel := by omega
          have hitems := ih (List.cons_ne_nil _ _) hless
          rw [Reader.items, hvalue]
          simp only [Option.bind_eq_bind, Option.bind_some, hleft, hitems]
          rfl

-- A list of texts that are read is read as the list of what they are.
theorem reads_list {texts : List String} {jsons : List Json}
    (h : List.Forall₂ (fun text json => Reads text.toList json) texts jsons) :
    Reads (list texts).toList (.array jsons) := by
  intro fuel rest hfuel _
  obtain ⟨fuel, rfl⟩ : ∃ less, fuel = less + 1 := ⟨fuel - 1, by omega⟩
  have htext : (list texts).toList = '[' :: (joined texts ++ [']']) := by
    rw [list, String.toList_append, String.toList_append, String.toList_intercalate]
    rfl
  rw [htext] at hfuel ⊢
  refine ⟨rest, ?_, rfl⟩
  rw [List.cons_append, List.append_assoc]
  cases h with
  | nil => rfl
  | cons hfirst hrest =>
      refine Reader.value_list (items_read (.cons hfirst hrest) (List.cons_ne_nil _ _) ?_ rest)
      rw [List.length_cons, List.length_append, List.length_singleton] at hfuel
      omega

-- A member of a record: a plain name, and a text that is read.
def ReadsMember (entry : String × String) (member : Option String × Json) : Prop :=
  (∀ c ∈ entry.1.toList, Reader.IsPlain c) ∧ member.1 = some entry.1 ∧
    Reads entry.2.toList member.2

theorem reads_member {name value : String} {json : Json}
    (hplain : name.toList.all (Reader.IsPlain ·) = true) (h : Reads value.toList json) :
    ReadsMember (name, value) (some name, json) :=
  ⟨Reader.plain_of_all hplain, rfl, h⟩

def memberOf (entry : String × String) : String := quote entry.1 ++ ":" ++ entry.2

theorem memberOf_toList {entry : String × String}
    (hplain : ∀ c ∈ entry.1.toList, Reader.IsPlain c) :
    (memberOf entry).toList = '"' :: (entry.1.toList ++ '"' :: ':' :: entry.2.toList) := by
  rw [memberOf, String.toList_append, String.toList_append, quote_plain hplain]
  simp

-- The name of a member is read, and then its value.
theorem fields_member {name : String} (hplain : ∀ c ∈ name.toList, Reader.IsPlain c) (fuel : Nat)
    (cs : List Char) :
    Reader.fields (fuel + 1) ('"' :: (name.toList ++ '"' :: ':' :: cs)) = (do
      let (item, rest) ← Reader.value fuel cs
      match skip rest with
      | ',' :: rest =>
          let (more, rest) ← Reader.fields fuel rest
          return ((some name, item) :: more, rest)
      | '\x7d' :: rest => return ([(some name, item)], rest)
      | _ => none) := by
  rw [Reader.fields, skip_mark (by simp)]
  show (Reader.string (name.toList ++ '"' :: ':' :: cs) >>= _) = _
  rw [string_plain hplain]
  rfl

theorem fields_read {entries : List (String × String)} {members : List (Option String × Json)}
    (h : List.Forall₂ ReadsMember entries members) (hsome : entries ≠ [])
    {fuel : Nat} (hfuel : (joined (entries.map memberOf)).length + 1 < fuel) (rest : List Char) :
    Reader.fields fuel (joined (entries.map memberOf) ++ '\x7d' :: rest) = some (members, rest) := by
  induction h generalizing fuel with
  | nil => exact absurd rfl hsome
  | @cons entry member entries members hfirst hrest ih =>
      obtain ⟨hplain, hname, hreads⟩ := hfirst
      obtain ⟨name, json⟩ := member
      cases hname
      obtain ⟨fuel, rfl⟩ : ∃ less, fuel = less + 1 := ⟨fuel - 1, by omega⟩
      cases hrest with
      | nil =>
          have hjoined : joined ([entry].map memberOf) = (memberOf entry).toList := by
            simp [joined, List.intercalate]
          rw [hjoined, memberOf_toList hplain] at hfuel ⊢
          simp only [List.length_cons, List.length_append] at hfuel
          obtain ⟨left, hvalue, hleft⟩ :=
            hreads fuel ('\x7d' :: rest) (by omega) (stops_cons (by simp) rest)
          rw [skip_mark (by simp)] at hleft
          simp only [List.cons_append, List.append_assoc]
          rw [fields_member hplain, hvalue]
          simp only [Option.bind_eq_bind, Option.bind_some, hleft]
          rfl
      | @cons next _ entries _ hnext hmore =>
          rw [List.map_cons, List.map_cons, joined_cons, memberOf_toList hplain] at hfuel ⊢
          simp only [List.length_cons, List.length_append] at hfuel
          obtain ⟨left, hvalue, hleft⟩ := hreads fuel
            (',' :: (joined (memberOf next :: entries.map memberOf) ++ '\x7d' :: rest))
            (by omega) (stops_cons (by simp) _)
          rw [skip_mark (by simp)] at hleft
          have hless : (joined ((next :: entries).map memberOf)).length + 1 < fuel := by
            rw [List.map_cons]
            omega
          have hfields := ih (List.cons_ne_nil _ _) hless
          rw [List.map_cons] at hfields
          simp only [List.cons_append, List.append_assoc]
          rw [fields_member hplain, hvalue]
          simp only [Option.bind_eq_bind, Option.bind_some, hleft, hfields]
          rfl

-- A record is read as the record of what its members are.
theorem reads_braces {entries : List (String × String)} {members : List (Option String × Json)}
    (h : List.Forall₂ ReadsMember entries members) (hsome : entries ≠ []) :
    Reads (braces entries).toList (.object members) := by
  intro fuel rest hfuel _
  obtain ⟨fuel, rfl⟩ : ∃ less, fuel = less + 1 := ⟨fuel - 1, by omega⟩
  have htext : (braces entries).toList =
      '\x7b' :: (joined (entries.map memberOf) ++ ['\x7d']) := by
    rw [braces, String.toList_append, String.toList_append, String.toList_intercalate]
    rfl
  rw [htext] at hfuel ⊢
  refine ⟨rest, ?_, rfl⟩
  rw [List.cons_append, List.append_assoc]
  refine Reader.value_record (fields_read h hsome ?_ rest)
  rw [List.length_cons, List.length_append, List.length_singleton] at hfuel
  omega

-- A number starts with zero only if it is zero.
theorem toDigits_head {n : Nat} (hpos : 0 < n) : ∀ c ∈ (Nat.toDigits 10 n).head?, c ≠ '0' := by
  induction n using Nat.strongRecOn with
  | ind n ih =>
      intro c hc
      rw [Nat.toDigits_eq_if (by decide)] at hc
      split at hc
      · cases hc
        interval_cases n <;> decide
      · have hless := ih (n / 10) (by omega) (by omega)
        refine hless c ?_
        cases hdigits : Nat.toDigits 10 (n / 10) with
        | nil => exact absurd hdigits Nat.toDigits_ne_nil
        | cons d digits =>
            rw [hdigits] at hc
            exact hc

theorem digitsOf_toDigits (n : Nat) : Reader.digitsOf (Nat.toDigits 10 n) = n := by
  have hdigits : Nat.ofDigitChars 10 (Nat.toDigits 10 n) 0 = n := Nat.ofDigitChars_ten_toDigits
  rw [Nat.ofDigitChars_eq_foldl] at hdigits
  rw [Reader.digitsOf]
  refine Eq.trans ?_ hdigits
  congr 1
  funext sofar c
  rw [Reader.digitOf, Nat.mul_comm]

theorem isDigit_toDigits (n : Nat) : ∀ c ∈ Nat.toDigits 10 n, c.isDigit = true :=
  fun _ hc => Nat.isDigit_of_mem_toDigits (by decide) (by decide) hc

-- The digits of a number are read as that number, after a sign and without one.
theorem magnitude_toDigits (negative : Bool) (n : Nat) :
    Reader.magnitude negative (Nat.toDigits 10 n) = some (⟨negative, n, 0, true⟩, []) := by
  have htake : (Nat.toDigits 10 n).takeWhile Char.isDigit = Nat.toDigits 10 n :=
    List.takeWhile_eq_self_iff.mpr (isDigit_toDigits n)
  have hdrop : (Nat.toDigits 10 n).dropWhile Char.isDigit = [] :=
    List.dropWhile_eq_nil_iff.mpr (isDigit_toDigits n)
  have hsingle : ∀ c d tail, Nat.toDigits 10 n = c :: d :: tail → c ≠ '0' := by
    intro c d tail hdigits
    refine toDigits_head (Nat.pos_of_ne_zero ?_) c (by rw [hdigits]; rfl)
    rintro rfl
    cases hdigits
  simp only [Reader.magnitude, htake, hdrop]
  split
  · rename_i hnone
    exact absurd hnone Nat.toDigits_ne_nil
  · rename_i hdigits
    exact absurd rfl (hsingle _ _ _ hdigits)
  · have hplaces : Reader.fraction [] = some ([], []) := rfl
    have hpower : Reader.exponent [] = some (none, []) := rfl
    simp only [hplaces, hpower, Option.bind_eq_bind, Option.bind_some, List.append_nil,
      digitsOf_toDigits]
    rfl

theorem numeral_toDigits (n : Nat) :
    Reader.numeral (Nat.toDigits 10 n) = some (⟨false, n, 0, true⟩, []) := by
  have hvalue := magnitude_toDigits false n
  have hall := isDigit_toDigits n
  cases hdigits : Nat.toDigits 10 n with
  | nil => exact absurd hdigits Nat.toDigits_ne_nil
  | cons c tail =>
      rw [hdigits] at hvalue hall
      rw [Reader.numeral_of_ne, hvalue]
      rintro rfl
      exact absurd (hall _ List.mem_cons_self) (by decide)

theorem read_numeral {text : String} {numeral : Numeral}
    (h : Reader.numeral (skip text.toList) = some (numeral, [])) :
    read text = some (.number numeral) :=
  Option.bind_eq_some_iff.mpr ⟨(.number numeral, []), Reader.value_numeral h _, rfl⟩

theorem toList_toString (n : Nat) : (toString n).toList = Nat.toDigits 10 n := by
  rw [Nat.toString_eq_ofList_toDigits, String.toList_ofList]

theorem read_nat (n : Nat) : read (toString n) = some (.number ⟨false, n, 0, true⟩) := by
  have hskip : skip (Nat.toDigits 10 n) = Nat.toDigits 10 n := by
    cases hdigits : Nat.toDigits 10 n with
    | nil => rfl
    | cons c tail =>
        have hdigit : c.isDigit = true := isDigit_toDigits n c (hdigits ▸ List.mem_cons_self)
        refine List.dropWhile_cons_of_neg fun hspace => ?_
        simp only [Reader.isSpace, Bool.or_eq_true, decide_eq_true_eq] at hspace
        obtain ((rfl | rfl) | rfl) | rfl := hspace <;> cases hdigit
  refine read_numeral ?_
  rw [toList_toString, hskip, numeral_toDigits]

theorem read_int (n : Int) : read (toString n) = some (ofInt n) := by
  cases n with
  | ofNat n => exact read_nat n
  | negSucc n =>
      refine read_numeral ?_
      have htext : (toString (Int.negSucc n)).toList = '-' :: Nat.toDigits 10 (n + 1) := by
        show ("-" ++ toString (n + 1)).toList = _
        rw [String.toList_append, toList_toString]
        rfl
      have hskip : skip ('-' :: Nat.toDigits 10 (n + 1)) = '-' :: Nat.toDigits 10 (n + 1) := rfl
      have hnegative : decide (Int.negSucc n < 0) = true := decide_eq_true (Int.negSucc_lt_zero n)
      rw [htext, hskip, Reader.numeral_negative, magnitude_toDigits, hnegative]
      rfl

end MapAlgebra.Json
