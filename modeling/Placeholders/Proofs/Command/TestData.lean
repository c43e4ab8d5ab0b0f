import Placeholders.Command.Reader
import Placeholders.Proofs.Command.Agreement
import Placeholders.Proofs.Failure
import Placeholders.Proofs.Segment.Reference

/-!
Test data from the command line to the document. The options of a rendering set columns, the last
one for a column counts, and a reference becomes the value of its column as it was given.
-/

namespace Placeholders
namespace Command

/-- An option sets a column to what follows its first equals sign. -/
def Sets (option column value : Text) : Prop :=
  ∃ name, option = name ++ '=' :: value ∧ '=' ∉ name ∧ Text.Trims name column

/-- What a reference becomes, by its column and the options of test data. -/
inductive Supplied (written : Text) (options : List Text) :
    Option Text → Except DocumentError Text → Prop where
  | noColumn : Supplied written options none (.error (.invalidReference written))
  | missing {column : Text} : (∀ option ∈ options, ∀ value, ¬ Sets option column value) →
      Supplied written options (some column) (.error (.missingColumn written column))
  | last {before after : List Text} {option column value : Text} :
      options = before ++ option :: after → Sets option column value →
      (∀ other ∈ after, ∀ value, ¬ Sets other column value) →
      Supplied written options (some column) (.ok value)

theorem readData_eq_ok_iff {option column value : Text} :
    readData option = .ok (column, value) ↔ Sets option column value := by
  unfold readData Sets
  constructor
  · intro h
    split at h
    · next name value' hcut =>
      obtain ⟨rfl, rfl⟩ := Prod.mk.inj (Except.ok.inj h)
      obtain ⟨hoption, hname⟩ := Text.cutAt_singleton_eq_some_iff.mp hcut
      exact ⟨name, hoption, hname, Text.trims_iff.mpr rfl⟩
    · contradiction
  · rintro ⟨name, rfl, hname, htrims⟩
    rw [Text.cutAt_singleton hname, Text.trims_iff.mp htrims]

theorem Sets.unique {option column value value' : Text} (h : Sets option column value)
    (h' : Sets option column value') : value = value' := by
  rw [← readData_eq_ok_iff] at h h'
  exact (Prod.mk.inj (Except.ok.inj (h.symm.trans h'))).2

/-- The last element with a property is one and the same. -/
theorem eq_of_last {α : Type} {P : α → Prop} {before after before' after' : List α} {x x' : α}
    (h : before ++ x :: after = before' ++ x' :: after') (hx : P x) (hx' : P x')
    (hafter : ∀ y ∈ after, ¬ P y) (hafter' : ∀ y ∈ after', ¬ P y) : x = x' := by
  cases List.append_eq_append_iff.mp h with
  | inl hlonger =>
      obtain ⟨middle, -, hmiddle⟩ := hlonger
      cases middle with
      | nil => exact (List.cons.inj hmiddle).1
      | cons _ middle =>
          obtain ⟨-, rfl⟩ := List.cons.inj hmiddle
          exact absurd hx' (hafter _ (by simp))
  | inr hshorter =>
      obtain ⟨middle, -, hmiddle⟩ := hshorter
      cases middle with
      | nil => exact (List.cons.inj hmiddle).1.symm
      | cons _ middle =>
          obtain ⟨-, rfl⟩ := List.cons.inj hmiddle
          exact absurd hx (hafter' _ (by simp))

/-- The options decide what a reference becomes. -/
theorem Supplied.unique {written : Text} {options : List Text} {column : Option Text}
    {result result' : Except DocumentError Text} (h : Supplied written options column result)
    (h' : Supplied written options column result') : result = result' := by
  cases h with
  | noColumn =>
      cases h' with
      | noColumn => rfl
  | missing hnone =>
      cases h' with
      | missing _ => rfl
      | last hoptions hsets _ => exact absurd hsets (hnone _ (by simp [hoptions]) _)
  | last hoptions hsets hafter =>
      cases h' with
      | missing hnone => exact absurd hsets (hnone _ (by simp [hoptions]) _)
      | last hoptions' hsets' hafter' =>
          rw [hoptions] at hoptions'
          have hsame := eq_of_last hoptions' ⟨_, hsets⟩ ⟨_, hsets'⟩
            (fun other hother => not_exists.mpr (hafter other hother))
            (fun other hother => not_exists.mpr (hafter' other hother))
          subst hsame
          rw [hsets.unique hsets']

/-- A value is not taken back by an option before it. -/
theorem Supplied.cons {written : Text} {options : List Text} {column : Option Text} {value : Text}
    (h : Supplied written options column (.ok value)) (option : Text) :
    Supplied written (option :: options) column (.ok value) := by
  cases h with
  | @last before after other _ _ hoptions hsets hafter =>
      have hlonger : option :: options = option :: before ++ other :: after := by
        rw [hoptions, List.cons_append]
      exact .last hlonger hsets hafter

theorem dataSource_cons (column value : Text) (data : List (Text × Text)) (c : Text) :
    dataSource ((column, value) :: data) c =
      (dataSource data c).or (if c = column then some value else none) := by
  rw [dataSource, dataSource, List.reverse_cons, List.lookup_append, List.lookup_cons]
  by_cases h : c = column
  · rw [if_pos h, beq_iff_eq.mpr h]
  · rw [if_neg h, beq_false_of_ne h, List.lookup_nil]

/-- A reference is supplied by the last option for its column. -/
theorem supplied_answer {options : List Text} {data : List (Text × Text)}
    (h : List.Forall₂ (fun option entry => readData option = .ok entry) options data)
    (written : Text) (column : Option Text) :
    Supplied written options column ((dataSource data).answer written column) := by
  cases column with
  | none => exact .noColumn
  | some column =>
      induction h with
      | nil => exact .missing (List.forall_mem_nil _)
      | @cons option entry options data hentry _ ih =>
          obtain ⟨c, v⟩ := entry
          have hcons := dataSource_cons c v data column
          cases hrest : dataSource data column with
          | some value =>
              simp only [ColumnValues.answer, hcons, hrest, Option.some_or] at ih ⊢
              exact ih.cons option
          | none =>
              simp only [ColumnValues.answer, hcons, hrest, Option.none_or] at ih ⊢
              cases ih with
              | missing hnone =>
                  by_cases hcolumn : column = c
                  · subst hcolumn
                    rw [if_pos rfl]
                    exact .last (List.nil_append _).symm (readData_eq_ok_iff.mp hentry) hnone
                  · rw [if_neg hcolumn]
                    refine .missing (List.forall_mem_cons.mpr ⟨fun value hsets => ?_, hnone⟩)
                    rw [readData_eq_ok_iff.mpr hsets] at hentry
                    exact hcolumn (Prod.mk.inj (Except.ok.inj hentry)).1

/-- The values of the options for test data, in the order in which they are given. -/
def dataValues (given : List Given) : List Text :=
  given.filterMap fun
    | .option .data value _ => value
    | _ => none

theorem data_of_put {filesOnly : Bool} {s s' : Settings} {given : Given}
    (h : s.put filesOnly given = .ok s') : ∃ entries,
      (dataValues [given]).mapM readData = .ok entries ∧ s'.data = s.data ++ entries := by
  cases given with
  | operand t =>
      simp only [Settings.put] at h
      split at h
      · contradiction
      · obtain rfl := Except.ok.inj h
        exact ⟨[], rfl, (List.append_nil _).symm⟩
  | option name value isOpen =>
      cases name with
      | data =>
          cases value with
          | none => contradiction
          | some option =>
              cases hread : readData option with
              | error e =>
                  simp only [Settings.put, hread] at h
                  contradiction
              | ok entry =>
                  simp only [Settings.put, hread] at h
                  obtain rfl := Except.ok.inj h
                  exact ⟨[entry], (mapM_eq_ok_iff _).mpr (.cons hread .nil), rfl⟩
      | _ =>
          -- No other option touches the data.
          refine ⟨[], rfl, ?_⟩
          cases value with
          | none => grind [Settings.put, Settings.setFlag]
          | some t =>
              cases htime : readTime t with
              | error e => grind [Settings.put, Settings.setFlag, Except.map]
              | ok now => grind [Settings.put, Settings.setFlag, Except.map]

theorem data_of_putAll {filesOnly : Bool} {s s' : Settings} {given : List Given}
    (h : putAll filesOnly s given = .ok s') : ∃ entries,
      (dataValues given).mapM readData = .ok entries ∧ s'.data = s.data ++ entries := by
  induction given generalizing s with
  | nil =>
      obtain rfl := Except.ok.inj h
      exact ⟨[], rfl, (List.append_nil _).symm⟩
  | cons first given ih =>
      rw [putAll, List.foldlM_cons] at h
      obtain ⟨s₁, hfirst, hrest⟩ := bind_eq_ok h
      obtain ⟨entries, hentries, hdata⟩ := data_of_put hfirst
      obtain ⟨entries', hentries', hdata'⟩ := ih hrest
      refine ⟨entries ++ entries', ?_, by rw [hdata', hdata, List.append_assoc]⟩
      have hsplit : dataValues (first :: given) = dataValues [first] ++ dataValues given :=
        @List.filterMap_append _ _ [first] given _
      rw [hsplit, List.mapM_append, hentries, hentries']
      rfl

theorem putEnvironment_eq_ok {env : Environment} {s s' : Settings}
    (h : s.putEnvironment env = .ok s') : s' = s := by
  unfold Settings.putEnvironment at h
  split at h
  · obtain ⟨_, _, h⟩ := bind_eq_ok h
    exact (Except.ok.inj h).symm
  · exact (Except.ok.inj h).symm

theorem data_of_readLevel {env : Environment} {level : Level} {filesOnly : Bool}
    {words : List Text} {s : Settings} (h : readLevel env level filesOnly words = .ok s) :
    ∃ given, level.readWords .free 0 words = (given, .complete) ∧
      (dataValues given).mapM readData = .ok s.data := by
  unfold readLevel at h
  split at h
  · next given hwords =>
    obtain ⟨s₁, hput, henvironment⟩ := bind_eq_ok h
    obtain ⟨entries, hentries, hdata⟩ := data_of_putAll hput
    rw [putEnvironment_eq_ok henvironment, hdata]
    exact ⟨given, hwords, hentries⟩
  · obtain ⟨_, _, h⟩ := bind_eq_ok h
    contradiction

/-- Commands with an operand are made of the settings on their level and the operand. -/
theorem eq_of_settings_of_operand {level : Except Refusal Settings} {s : Settings}
    {operand : Settings → Except Refusal Text} {make : Settings → Text → Command}
    {command : Command}
    (h : (do
      let s ← level
      let t ← operand s
      pure (make s t, s)) = Except.ok (command, s)) :
    level = .ok s ∧ ∃ t, command = make s t := by
  obtain ⟨s₁, hlevel, h⟩ := bind_eq_ok h
  obtain ⟨t, _, h⟩ := bind_eq_ok h
  obtain ⟨rfl, rfl⟩ := Prod.mk.inj (Except.ok.inj h)
  exact ⟨hlevel, t, rfl⟩

theorem readLevel_of_readCommand {env : Environment} {name file : Text} {words : List Text}
    {data : List (Text × Text)} {json : Bool} {s : Settings}
    (h : readCommand env name words = .ok (.render file data json, s)) :
    name = "render".toList ∧ data = s.data ∧
      readLevel env (commandLevel [.json, .data] (some 1)) true words = .ok s := by
  unfold readCommand at h
  dsimp only at h
  split_ifs at h with heval hparse hcheck hrender hfunctions
  · obtain ⟨_, _, hcommand⟩ := eq_of_settings_of_operand h
    contradiction
  · obtain ⟨_, _, hcommand⟩ := eq_of_settings_of_operand h
    contradiction
  · obtain ⟨_, _, hcommand⟩ := eq_of_settings_of_operand h
    contradiction
  · obtain ⟨hlevel, _, hcommand⟩ := eq_of_settings_of_operand h
    obtain ⟨rfl, rfl, rfl⟩ := Command.render.inj hcommand
    exact ⟨hrender, rfl, hlevel⟩
  · obtain ⟨_, _, h⟩ := bind_eq_ok h
    nomatch Except.ok.inj h
  · split at h <;> contradiction

/-- The test data of a rendering are those of the options on its level, in their order. -/
theorem data_of_read {env : Environment} {words : List Text} {request : Request} {file : Text}
    {data : List (Text × Text)} {json : Bool} (h : read env words = .ok request)
    (hcommand : request.command = .render file data json) :
    ∃ before rest given,
      firstLevel.readWords .free 0 words = (before, .command "render".toList rest) ∧
      (commandLevel [.json, .data] (some 1)).readWords .free 0 rest = (given, .complete) ∧
      (dataValues given).mapM readData = .ok data := by
  unfold read at h
  split at h
  next before ending hwords =>
  split at h
  · obtain ⟨_, _, h⟩ := bind_eq_ok h
    contradiction
  · obtain ⟨_, _, h⟩ := bind_eq_ok h
    obtain ⟨_, _, h⟩ := bind_eq_ok h
    contradiction
  · next name rest =>
    obtain ⟨_, _, h⟩ := bind_eq_ok h
    obtain ⟨⟨command, later⟩, hfound, h⟩ := bind_eq_ok h
    obtain ⟨_, _, h⟩ := bind_eq_ok h
    obtain ⟨_, _, h⟩ := bind_eq_ok h
    have hsame : request.command = command := by
      -- Whichever time counts, the command is that of its level.
      split at h
      all_goals
        obtain ⟨_, _, h⟩ := bind_eq_ok h
        obtain rfl := Except.ok.inj h
        rfl
    rw [hsame] at hcommand
    subst hcommand
    obtain ⟨rfl, rfl, hlevel⟩ := readLevel_of_readCommand hfound
    obtain ⟨given, hgiven, hdata⟩ := data_of_readLevel hlevel
    exact ⟨before, rest, given, hwords, hgiven, hdata⟩

theorem getElem?_resolveDocument {document : Text} {k start : Nat} {o : Occurrence}
    {column : Option Text} (hscan : (Segment.scan document)[k]? = some (.placeholder start o))
    (hmeaning : o.meaning = .testData column) (registry : Registry (StateM Clock)) (identity : Text)
    (data : List (Text × Text)) (clock : Clock) :
    (clock.run (resolveDocument registry identity document data))[k]? =
      some (.placeholder start o.written ((dataSource data).answer o.written column)) := by
  have hpart := Clock.getElem?_run_mapM
    (Resolver.resolveSegment ⟨registry, identity, Fallback.none, dataSource data⟩) hscan clock
  simp only [Resolver.resolveSegment, Resolver.resolveOccurrence, hmeaning, pure_bind,
    Clock.run_pure] at hpart
  exact hpart

/-- Text that has not the form of a placeholder and reaches to the first closing braces is a
reference to test data if and only if a piece of it between dots is the word for that, whatever
space is around it. Its column is the last piece, unless that is blank or is the first such word.
And whichever options of test data are accepted, it becomes the value of the last one for its
column, as it stands behind the first equals sign there; without one, or without a column, it is an
error. The data of a command line that renders are those of its options, in their order. -/
theorem reference_supplied {document : Text} {k start : Nat} {o : Occurrence}
    (hscan : (Segment.scan document)[k]? = some (.placeholder start o))
    (hform : Placeholder.readAt? start document = none) :
    ∃ inside body after before last,
      document.fromByte? start = some ('{' :: '{' :: inside) ∧
      Text.FirstCut ['}', '}'] inside body after ∧ o.written = '{' :: '{' :: body ++ ['}', '}'] ∧
      TestData.Divided body before last ∧
      ((∃ column, o.meaning = .testData column) ↔
        ∃ piece ∈ before ++ [last], Text.Trims piece TestData.marker) ∧
      ∀ column, o.meaning = .testData column →
        (column = none ↔ Text.Trims last [] ∨
          Text.Trims last TestData.marker ∧
            ∀ piece ∈ before, ¬ Text.Trims piece TestData.marker) ∧
        (∀ c, column = some c → Text.Trims last c) ∧
        (∀ options data, options.mapM readData = .ok data →
          ∀ (registry : Registry (StateM Clock)) identity (clock : Clock), ∃ result,
            (clock.run (resolveDocument registry identity document data))[k]? =
              some (.placeholder start o.written result) ∧
            Supplied o.written options column result) ∧
        ∀ env words request file data json, read env words = .ok request →
          request.command = .render file data json →
          ∃ before rest given,
            firstLevel.readWords .free 0 words = (before, .command "render".toList rest) ∧
            (commandLevel [.json, .data] (some 1)).readWords .free 0 rest = (given, .complete) ∧
            (dataValues given).mapM readData = .ok data ∧
            ∀ (registry : Registry (StateM Clock)) contents (clock : Clock),
              contents file = some document → ∃ parts result,
                clock.run (request.command.execute registry request.identity contents) =
                  .ok (reportResolved parts json) ∧
                parts[k]? = some (.placeholder start o.written result) ∧
                Supplied o.written (dataValues given) column result := by
  obtain ⟨s, hs, hread⟩ := Segment.read?_of_mem_scan (List.mem_of_getElem? hscan)
  rw [Placeholder.readAt?, hs, Option.bind_some] at hform
  cases Occurrence.read?_eq_some_iff.mp hread with
  | inl hfits =>
      obtain ⟨p, rest, hp, -⟩ := hfits
      exact absurd hform (hp ▸ Option.some_ne_none _)
  | inr hcloses =>
      obtain ⟨-, inside, body, after, rfl, hcut, rfl⟩ := hcloses
      obtain ⟨before, last, hdivided⟩ := TestData.exists_divided body
      have hmeaning := @Occurrence.meaning_ofBody_eq_testData_iff body
      refine ⟨inside, body, after, before, last, hs, hcut, rfl, hdivided, ?_, ?_⟩
      · simp only [hmeaning, ← hdivided.isReference_iff, exists_and_left, exists_eq, and_true]
      · intro column hcolumn
        obtain ⟨hreference, hlast⟩ := hmeaning.mp hcolumn
        have hsupplied (options : List Text) (data : List (Text × Text))
            (hdata : options.mapM readData = .ok data) :=
          supplied_answer ((mapM_eq_ok_iff _).mp hdata) (Occurrence.ofBody body).written column
        have hpart := getElem?_resolveDocument hscan hcolumn
        refine ⟨?_, ?_, ?_, ?_⟩
        · rw [hlast]
          exact hdivided.column?_eq_none_iff hreference
        · intro c hc
          exact hdivided.trims_of_column?_eq_some (hlast.symm.trans hc)
        · intro options data hdata registry identity clock
          exact ⟨_, hpart registry identity data clock, hsupplied options data hdata⟩
        · intro env words request file data json hread hcommand
          obtain ⟨before, rest, given, hwords, hgiven, hdata⟩ := data_of_read hread hcommand
          refine ⟨before, rest, given, hwords, hgiven, hdata, ?_⟩
          intro registry contents clock hcontents
          refine ⟨_, _, ?_, hpart registry request.identity data clock, hsupplied _ data hdata⟩
          rw [hcommand]
          exact run_render hcontents clock request.identity data json

/-- Two options for the column with different space around it, and one for another column. -/
theorem reference_supplied_of_two_options :
    let document := "x{{TestData.(A).Name }}".toList
    let options := ["Name=1".toList, " Name\u00a0= =2".toList, "Other=3".toList]
    let data := [("Name".toList, ['1']), ("Name".toList, " =2".toList), ("Other".toList, ['3'])]
    (Segment.scan document)[1]? =
      some (.placeholder 1 (.ofBody "TestData.(A).Name ".toList)) ∧
    Placeholder.readAt? 1 document = none ∧ options.mapM readData = .ok data ∧
    ∀ (registry : Registry (StateM Clock)) identity (clock : Clock),
      (clock.run (resolveDocument registry identity document data))[1]? =
        some (.placeholder 1 "{{TestData.(A).Name }}".toList (.ok " =2".toList)) := by
  intro document options data
  have hscan : (Segment.scan document)[1]? =
      some (.placeholder 1 (.ofBody "TestData.(A).Name ".toList)) := by decide +kernel
  have hform : Placeholder.readAt? 1 document = none := by decide +kernel
  have hdata : options.mapM readData = .ok data := by decide +kernel
  refine ⟨hscan, hform, hdata, ?_⟩
  intro registry identity clock
  obtain ⟨_, _, _, _, _, _, _, hwritten, _, _, hreference⟩ := reference_supplied hscan hform
  obtain ⟨_, _, hoptions, _⟩ := hreference (some "Name".toList) (by decide +kernel)
  obtain ⟨result, hpart, hsupplied⟩ := hoptions options data hdata registry identity clock
  have hsets : Sets " Name\u00a0= =2".toList "Name".toList " =2".toList :=
    readData_eq_ok_iff.mp (by decide +kernel)
  have hother (value : Text) : ¬ Sets "Other=3".toList "Name".toList value := by
    intro h
    have hread : readData "Other=3".toList = .ok ("Other".toList, ['3']) := by decide +kernel
    rw [← readData_eq_ok_iff, hread] at h
    exact absurd (Prod.mk.inj (Except.ok.inj h)).1 (by decide)
  have hresult : result = .ok " =2".toList :=
    hsupplied.unique (@Supplied.last _ options ["Name=1".toList] ["Other=3".toList] _ _ _ rfl hsets
      (List.forall_mem_singleton.mpr hother))
  rw [hpart, hresult]
  rfl

end Command
end Placeholders
