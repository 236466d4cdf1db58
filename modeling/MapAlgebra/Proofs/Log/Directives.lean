import MapAlgebra.Log
import MapAlgebra.Proofs.Outcome
import MapAlgebra.Proofs.Text
import Mathlib.Data.List.Induction

namespace MapAlgebra.Log

-- The words that stand for a level.
def Level.words : Level → List String
  | .off => ["off", "0"]
  | .error => ["error"]
  | .warn => ["warn", "warning"]
  | .trace => ["trace", "1", "full"]

theorem Channel.ofName_eq_ok_iff {text : String} {channel : Channel} :
    Channel.ofName text = .ok channel ↔ text = channel.name := by
  unfold Channel.ofName
  constructor
  · intro h
    split at h
    · rename_i found hfound
      cases h
      have hname := List.find?_some hfound
      exact (of_decide_eq_true hname).symm
    · cases h
  · rintro rfl
    cases channel <;> rfl

theorem Level.ofName_eq_ok_iff {text : String} {level : Level} :
    Level.ofName text = .ok level ↔ text ∈ level.words := by
  constructor
  · intro h
    unfold Level.ofName at h
    split at h <;> cases h <;> decide
  · intro h
    have hwords : ∀ word ∈ level.words, Level.ofName word = .ok level := by
      cases level <;> simp [words, Level.ofName]
    exact hwords text h

-- A part that names a level alone.
def Bare (part : String) (level : Level) : Prop := part ∈ level.words

-- A part that names a channel and a level, with an equals sign between them.
def Override (channel : Channel) (part : String) (level : Level) : Prop :=
  ∃ name word, part = name ++ "=" ++ word ∧ Text.trim name = channel.name ∧
    Text.trim word ∈ level.words

theorem eq_not_mem_words {word : String} {level : Level} (h : word ∈ level.words) :
    '=' ∉ word.toList := by
  have hwords : ∀ word ∈ level.words, '=' ∉ word.toList := by
    cases level <;> decide
  exact hwords word h

theorem eq_not_mem_name (channel : Channel) : '=' ∉ channel.name.toList := by
  cases channel <;> decide

namespace Directive

theorem read?_eq_every_iff {part : String} {level : Level} :
    read? part = some (.every level) ↔ Bare part level := by
  unfold read? Bare
  cases hdivided : Text.splitOnce '=' part with
  | none =>
      simp only [Option.bind_eq_bind, Option.bind_eq_some_iff, toOption_eq_some,
        Level.ofName_eq_ok_iff]
      constructor
      · rintro ⟨found, hfound, hsame⟩
        cases hsame
        exact hfound
      · exact fun h => ⟨level, h, rfl⟩
  | some sides =>
      obtain ⟨hpart, -⟩ := Text.splitOnce_eq_some_iff.mp hdivided
      have hsign : '=' ∈ part.toList := by rw [hpart]; simp
      refine iff_of_false (fun h => ?_) fun h => eq_not_mem_words h hsign
      simp only [Option.bind_eq_bind, Option.bind_eq_some_iff] at h
      obtain ⟨_, _, _, _, h⟩ := h
      cases h

theorem read?_eq_one_iff {part : String} {channel : Channel} {level : Level} :
    read? part = some (.one channel level) ↔ Override channel part level := by
  unfold read?
  constructor
  · intro h
    cases hdivided : Text.splitOnce '=' part with
    | none =>
        simp only [hdivided, Option.bind_eq_bind, Option.bind_eq_some_iff] at h
        obtain ⟨_, _, h⟩ := h
        cases h
    | some sides =>
        simp only [hdivided, Option.bind_eq_bind, Option.bind_eq_some_iff, toOption_eq_some,
          Channel.ofName_eq_ok_iff, Level.ofName_eq_ok_iff] at h
        obtain ⟨_, hname, _, hword, h⟩ := h
        cases h
        obtain ⟨hpart, -⟩ := Text.splitOnce_eq_some_iff.mp hdivided
        refine ⟨sides.1, sides.2, ?_, hname, hword⟩
        rw [← String.toList_inj, hpart, String.toList_append, String.toList_append, List.append_assoc]
        rfl
  · rintro ⟨name, word, rfl, hname, hword⟩
    -- what is trimmed off the name is blank, so that the name has no equals sign either
    have hfree : '=' ∉ name.toList := fun hsign =>
      eq_not_mem_name channel (hname ▸ Text.mem_trim hsign (by decide))
    have hdivided : Text.splitOnce '=' (name ++ "=" ++ word) = some (name, word) := by
      refine Text.splitOnce_eq_some_iff.mpr ⟨?_, hfree⟩
      rw [String.toList_append, String.toList_append, List.append_assoc]
      rfl
    simp only [hdivided, hname, Channel.ofName_eq_ok_iff.mpr rfl, Level.ofName_eq_ok_iff.mpr hword]
    rfl

end Directive

instance (part : String) (level : Level) : Decidable (Bare part level) :=
  inferInstanceAs (Decidable (part ∈ level.words))

instance (channel : Channel) (part : String) (level : Level) :
    Decidable (Override channel part level) :=
  decidable_of_iff _ Directive.read?_eq_one_iff

-- The last one of some parts that tells a level in a certain way.
def LastSaid (tells : String → Level → Prop) (parts : List String) (level : Level) : Prop :=
  ∃ before part after, parts = before ++ part :: after ∧ tells part level ∧
    ∀ later ∈ after, ∀ other, ¬ tells later other

-- What parts make of the level that was there before.
def Settles (tells : String → Level → Prop) (parts : List String) (start level : Level) : Prop :=
  LastSaid tells parts level ∨ (¬ ∃ other, LastSaid tells parts other) ∧ level = start

section Settling

variable {tells : String → Level → Prop} {parts : List String} {part : String} {level start : Level}

theorem lastSaid_concat : LastSaid tells (parts ++ [part]) level ↔
    tells part level ∨ (∀ other, ¬ tells part other) ∧ LastSaid tells parts level := by
  constructor
  · rintro ⟨before, said, after, hparts, htells, hsilent⟩
    obtain rfl | ⟨after, last, rfl⟩ := List.eq_nil_or_concat' after
    · obtain ⟨-, hlast⟩ := List.append_inj' hparts rfl
      cases hlast
      exact Or.inl htells
    · rw [← List.cons_append, ← List.append_assoc] at hparts
      obtain ⟨rfl, hlast⟩ := List.append_inj' hparts rfl
      cases hlast
      refine Or.inr ⟨hsilent part (by simp), before, said, after, rfl, htells, fun later hlater => ?_⟩
      exact hsilent later (List.mem_append_left _ hlater)
  · rintro (htells | ⟨hpart, before, said, after, rfl, htells, hsilent⟩)
    · exact ⟨parts, part, [], rfl, htells, fun _ h => absurd h List.not_mem_nil⟩
    · refine ⟨before, said, after ++ [part], by simp, htells, fun later hlater => ?_⟩
      obtain hlater | hlater := List.mem_append.mp hlater
      · exact hsilent later hlater
      · exact List.mem_singleton.mp hlater ▸ hpart

-- A pass that takes over what each part says, and nothing from a silent part, ends with what was said
-- last.
theorem foldl_settles {σ : Type} (view : σ → Level) {step : σ → String → σ}
    (hsaid : ∀ state part level, tells part level → view (step state part) = level)
    (hsilent : ∀ state part, (∀ level, ¬ tells part level) → view (step state part) = view state)
    (parts : List String) (state : σ) (level : Level) :
    view (parts.foldl step state) = level ↔ Settles tells parts (view state) level := by
  induction parts using List.reverseRecOn generalizing level with
  | nil =>
      have hnone : ∀ level, ¬ LastSaid tells [] level := by
        rintro level ⟨before, part, after, hparts, -⟩
        cases before <;> cases hparts
      simp [Settles, hnone, eq_comm]
  | append_singleton parts part ih =>
      rw [List.foldl_concat]
      by_cases h : ∃ said, tells part said
      · obtain ⟨said, htells⟩ := h
        rw [hsaid _ _ _ htells]
        constructor
        · rintro rfl
          exact Or.inl (lastSaid_concat.mpr (Or.inl htells))
        · rintro (hlast | ⟨hnone, -⟩)
          · obtain hlast | ⟨hpart, -⟩ := lastSaid_concat.mp hlast
            · exact (hsaid state part said htells).symm.trans (hsaid state part level hlast)
            · exact absurd htells (hpart said)
          · exact absurd ⟨said, lastSaid_concat.mpr (Or.inl htells)⟩ hnone
      · have hpart : ∀ level, ¬ tells part level := not_exists.mp h
        have hsame : ∀ level, LastSaid tells (parts ++ [part]) level ↔ LastSaid tells parts level :=
          fun level => lastSaid_concat.trans
            ⟨fun h => h.elim (absurd · (hpart level)) And.right, fun h => Or.inr ⟨hpart, h⟩⟩
        rw [hsilent _ _ hpart, ih, Settles, Settles]
        simp only [hsame]

end Settling

namespace Filter

variable {pieces before middle after : List String} {piece : String} {channel : Channel}
  {level : Level}

-- A part that says something. The others are passed over.
def Valid (part : String) : Prop :=
  ∃ level, Bare part level ∨ ∃ channel, Override channel part level

-- The level of a channel: what is said last of the channel itself, else what is said last of all of
-- them, else errors.
def Governs (parts : List String) (channel : Channel) (level : Level) : Prop :=
  LastSaid (Override channel) parts level ∨
    (¬ ∃ other, LastSaid (Override channel) parts other) ∧ Settles Bare parts .error level

theorem level_withLevel (filter : Filter) (level : Level) (channel other : Channel) :
    (filter.withLevel level channel).level other =
      if channel = other then level else filter.level other := by
  cases channel <;> cases other <;> rfl

theorem level_uniform (level : Level) (channel : Channel) : (uniform level).level channel = level := by
  cases channel <;> rfl

-- Levels for all channels, and what they leave of a filter.
theorem level_general (parts : List String) (start : Filter) (channel : Channel) (level : Level) :
    ((parts.filterMap Directive.read?).foldl general start).level channel = level ↔
      Settles Bare parts (start.level channel) level := by
  rw [List.foldl_filterMap]
  refine foldl_settles (Filter.level · channel) (fun filter part level hbare => ?_)
    (fun filter part hsilent => ?_) parts start level
  · rw [Directive.read?_eq_every_iff.mpr hbare]
    exact level_uniform level channel
  · cases hread : Directive.read? part with
    | none => rfl
    | some directive =>
        cases directive with
        | every said => exact absurd (Directive.read?_eq_every_iff.mp hread) (hsilent said)
        | one other said => rfl

-- Levels for single channels, and what they leave of a filter.
theorem level_special (parts : List String) (start : Filter) (channel : Channel) (level : Level) :
    ((parts.filterMap Directive.read?).foldl special start).level channel = level ↔
      Settles (Override channel) parts (start.level channel) level := by
  rw [List.foldl_filterMap]
  refine foldl_settles (Filter.level · channel) (fun filter part level hsaid => ?_)
    (fun filter part hsilent => ?_) parts start level
  · rw [Directive.read?_eq_one_iff.mpr hsaid]
    exact (level_withLevel filter level channel channel).trans (if_pos rfl)
  · cases hread : Directive.read? part with
    | none => rfl
    | some directive =>
        cases directive with
        | every said => rfl
        | one other said =>
            refine (level_withLevel filter said other channel).trans (if_neg ?_)
            rintro rfl
            exact hsilent said (Directive.read?_eq_one_iff.mp hread)

theorem level_parse (text : String) (channel : Channel) (level : Level) :
    (parse text).level channel = level ↔ Governs (parts text) channel level := by
  have hgeneral := level_general (parts text) (uniform .error) channel level
  rw [level_uniform] at hgeneral
  rw [parse, directives, level_special, Settles, Governs, ← hgeneral, eq_comm (a := level)]

-- What is left of some pieces of a text once they are trimmed and put in small letters.
def cleaned (pieces : List String) : List String :=
  ((pieces.map Text.trim).filter (· ≠ "")).map Text.lower

theorem parts_intercalate (hfree : ∀ piece ∈ pieces, ',' ∉ piece.toList) :
    parts (",".intercalate pieces) = cleaned pieces := by
  cases pieces with
  | nil => rfl
  | cons piece pieces =>
      rw [parts, Text.split_intercalate rfl hfree (List.cons_ne_nil _ _)]
      rfl

def readPiece (piece : String) : Option Directive :=
  Directive.read? (Text.lower (Text.trim piece))

theorem directives_intercalate (hfree : ∀ piece ∈ pieces, ',' ∉ piece.toList) :
    directives (",".intercalate pieces) = pieces.filterMap readPiece := by
  rw [directives, parts_intercalate hfree]
  clear hfree
  induction pieces with
  | nil => rfl
  | cons piece pieces ih =>
      by_cases hblank : Text.trim piece = ""
      · have hnone : readPiece piece = none := by
          rw [readPiece, hblank]
          decide +kernel
        rw [List.filterMap_cons_none hnone, ← ih, cleaned, cleaned, List.map_cons,
          List.filter_cons_of_neg (by simpa using hblank)]
      · rw [cleaned, List.map_cons, List.filter_cons_of_pos (by simpa using hblank), List.map_cons,
          List.filterMap_cons, List.filterMap_cons, ← ih]
        rfl

theorem readPiece_eq_none (h : ¬ Valid (Text.lower (Text.trim piece))) : readPiece piece = none := by
  cases hread : readPiece piece with
  | none => rfl
  | some directive =>
      refine absurd ?_ h
      cases directive with
      | every level => exact ⟨level, Or.inl (Directive.read?_eq_every_iff.mp hread)⟩
      | one channel level => exact ⟨level, Or.inr ⟨channel, Directive.read?_eq_one_iff.mp hread⟩⟩

-- Invalid pieces can come and go.
theorem directives_insert (hinvalid : ¬ Valid (Text.lower (Text.trim piece))) :
    (before ++ piece :: after).filterMap readPiece = (before ++ after).filterMap readPiece := by
  rw [List.filterMap_append, List.filterMap_append, List.filterMap_cons_none (readPiece_eq_none hinvalid)]

theorem foldl_special_every {directives : List Directive}
    (h : ∀ directive ∈ directives, ∃ level, directive = .every level) (filter : Filter) :
    directives.foldl special filter = filter := by
  induction directives with
  | nil => rfl
  | cons directive directives ih =>
      obtain ⟨level, rfl⟩ := h directive List.mem_cons_self
      exact ih fun other hother => h other (List.mem_cons_of_mem _ hother)

-- A level for one channel says the same on both sides of levels for all of them.
theorem parse_move (hfree : ∀ other ∈ before ++ piece :: (middle ++ after), ',' ∉ other.toList)
    (hpiece : Override channel (Text.lower (Text.trim piece)) level)
    (hmiddle : ∀ other ∈ middle, ∀ channel level, ¬ Override channel (Text.lower (Text.trim other)) level) :
    parse (",".intercalate (before ++ piece :: (middle ++ after))) =
      parse (",".intercalate (before ++ (middle ++ piece :: after))) := by
  have hfree' : ∀ other ∈ before ++ (middle ++ piece :: after), ',' ∉ other.toList := by
    intro other hother
    refine hfree other ?_
    simp only [List.mem_append, List.mem_cons] at hother ⊢
    tauto
  have hread : readPiece piece = some (.one channel level) := Directive.read?_eq_one_iff.mpr hpiece
  have hevery : ∀ directive ∈ middle.filterMap readPiece, ∃ level, directive = .every level := by
    intro directive hdirective
    obtain ⟨other, hother, hsaid⟩ := List.mem_filterMap.mp hdirective
    cases directive with
    | every said => exact ⟨said, rfl⟩
    | one named said => exact absurd (Directive.read?_eq_one_iff.mp hsaid) (hmiddle other hother _ _)
  rw [parse, parse, directives_intercalate hfree, directives_intercalate hfree']
  simp only [List.filterMap_append, List.filterMap_cons_some hread, List.foldl_append,
    List.foldl_cons, foldl_special_every hevery]
  rfl

-- A filter's text is made of pieces between commas. Of each channel it gives the level that was said
-- last of the channel, else the one that was said last of all channels, else errors. So pieces that say
-- nothing can stand anywhere, and it does not matter on which side of levels for all channels a level
-- for one of them stands. What is let through is what that level allows.
theorem filter_follows_directives :
    (∀ text, ∃ pieces, (∀ piece ∈ pieces, ',' ∉ piece.toList) ∧ text = ",".intercalate pieces) ∧
    ∀ pieces, (∀ piece ∈ pieces, ',' ∉ piece.toList) →
      (∀ channel level, (parse (",".intercalate pieces)).level channel = level ↔
        Governs (cleaned pieces) channel level) ∧
      (∀ channel level, (parse (",".intercalate pieces)).enabled channel level = true ↔
        level ≠ .off ∧ ∃ most, Governs (cleaned pieces) channel most ∧ level.rank ≤ most.rank) ∧
      (∀ before piece after, pieces = before ++ piece :: after →
        ¬ Valid (Text.lower (Text.trim piece)) →
        parse (",".intercalate pieces) = parse (",".intercalate (before ++ after))) ∧
      ∀ before piece middle after channel level, pieces = before ++ piece :: (middle ++ after) →
        Override channel (Text.lower (Text.trim piece)) level →
        (∀ other ∈ middle, ∀ channel level, ¬ Override channel (Text.lower (Text.trim other)) level) →
        parse (",".intercalate pieces) =
          parse (",".intercalate (before ++ (middle ++ piece :: after))) := by
  refine ⟨fun text => ⟨Text.split ',' text, fun piece hpiece => Text.not_mem_of_split hpiece,
    (Text.intercalate_split rfl text).symm⟩, fun pieces hfree => ⟨fun channel level => ?_,
      fun channel level => ?_, ?_, ?_⟩⟩
  · rw [level_parse, parts_intercalate hfree]
  · have hgoverns : ∀ most, Governs (cleaned pieces) channel most ↔
        (parse (",".intercalate pieces)).level channel = most := by
      intro most
      rw [level_parse, parts_intercalate hfree]
    simp only [enabled, hgoverns, Bool.and_eq_true, decide_eq_true_eq, exists_eq_left']
  · rintro before piece after rfl hinvalid
    have hsub : before ++ after ⊆ before ++ piece :: after :=
      List.append_subset.mpr ⟨List.subset_append_left _ _,
        List.Subset.trans (List.subset_cons_self _ _) (List.subset_append_right _ _)⟩
    have hfree' : ∀ other ∈ before ++ after, ',' ∉ other.toList := fun other hother =>
      hfree other (hsub hother)
    rw [parse, parse, directives_intercalate hfree, directives_intercalate hfree',
      directives_insert hinvalid]
  · rintro before piece middle after channel level rfl hpiece hmiddle
    exact parse_move hfree hpiece hmiddle

-- A level for one channel in front of a level for all of them, with blanks and capitals, and a word that
-- is no level.
theorem engine_traced_alone :
    (parse "Engine = Trace, loop=verbose,warn").level .engine = .trace ∧
      (parse "Engine = Trace, loop=verbose,warn").level .loop = .warn ∧
      (parse "Engine = Trace, loop=verbose,warn").enabled .loop .trace = false := by
  have htext : ",".intercalate ["Engine = Trace", " loop=verbose", "warn"] =
      "Engine = Trace, loop=verbose,warn" := by decide
  have hcleaned : cleaned ["Engine = Trace", " loop=verbose", "warn"] =
      ["engine = trace", "loop=verbose", "warn"] := by decide +kernel
  obtain ⟨-, hgoverned⟩ := filter_follows_directives
  obtain ⟨hlevel, henabled, -⟩ := hgoverned ["Engine = Trace", " loop=verbose", "warn"] (by decide)
  rw [htext, hcleaned] at hlevel henabled
  have hengine : Governs ["engine = trace", "loop=verbose", "warn"] .engine .trace :=
    Or.inl ⟨[], "engine = trace", _, rfl, by decide +kernel, fun later hlater other => by
      revert later
      cases other <;> decide +kernel⟩
  have hloop : Governs ["engine = trace", "loop=verbose", "warn"] .loop .warn := by
    have hbare : LastSaid Bare ["engine = trace", "loop=verbose", "warn"] .warn :=
      ⟨["engine = trace", "loop=verbose"], "warn", [], rfl, by decide, by simp⟩
    refine Or.inr ⟨?_, Or.inl hbare⟩
    rintro ⟨other, before, part, after, hparts, hsaid, -⟩
    have hnone : ∀ part ∈ ["engine = trace", "loop=verbose", "warn"], ¬ Override .loop part other := by
      cases other <;> decide +kernel
    exact hnone part (hparts ▸ by simp) hsaid
  have hlow : (parse "Engine = Trace, loop=verbose,warn").level .loop = .warn := (hlevel _ _).mpr hloop
  refine ⟨(hlevel _ _).mpr hengine, hlow, Bool.eq_false_iff.mpr fun h => ?_⟩
  obtain ⟨-, most, hmost, hrank⟩ := (henabled _ _).mp h
  have hsame : most = .warn := ((hlevel _ _).mpr hmost).symm.trans hlow
  rw [hsame] at hrank
  exact absurd hrank (by decide)

end Filter

end MapAlgebra.Log
