import MicroFrontends.CommandLine.Parser
import MicroFrontends.Proofs.Outcome

/-!
# Files with settings on the command line

Settings are read before the arguments are, so the files that hold them are looked for on their own
(`settingsFiles`). The arguments that do nothing but name such files (`NamesFiles`) change nothing
else in what a call asks for (`parse_append`), wherever an option with another effect begins.

* `settingsFiles_of_parse` : which files of an accepted call are found, and when all of them are;
* `settingsFiles_ne` : an accepted call with a file that is not found.
-/

namespace MicroFrontends.CommandLine

/-! ## Files that are named first -/

/-- What the arguments say if some files with settings are named before them. -/
def Arguments.withFiles (files : List String) (a : Arguments) : Arguments :=
  { a with config := files ++ a.config }

namespace Arguments

variable (files : List String) (a : Arguments)

theorem has_withFiles {o : Opt} (h : o ≠ .config) : (a.withFiles files).has o = a.has o := by
  cases o with
  | config => exact absurd rfl h
  | _ => rfl

theorem put_withFiles (o : Opt) (v : String) :
    (a.withFiles files).put o v = (a.put o v).map (withFiles files) := by
  have hchoose {α : Type} (x : Except UsageError α) (f : α → Arguments) :
      (x >>= fun b => pure ((f b).withFiles files)) =
        (x >>= fun b => pure (f b) : Except UsageError Arguments).map (withFiles files) := by
    cases x <;> rfl
  cases o with
  | config =>
    show Except.ok { a with config := (files ++ a.config) ++ [v] } =
      Except.ok { a with config := files ++ (a.config ++ [v]) }
    rw [List.append_assoc]
  | list => exact hchoose _ fun l => { a with list := some l }
  | invalidSelector => exact hchoose _ fun p => { a with invalidSelector := some p }
  | extraAttribute => exact hchoose _ fun b => { a with attributes := a.attributes ++ [b] }
  | outputFormat => exact hchoose _ fun f => { a with outputFormat := some f }
  | shellCompletions => exact hchoose _ fun s => { a with shellCompletions := some s }
  | _ => rfl

theorem putVariable_withFiles (environment : Dict String) (o : Opt) :
    putVariable environment (a.withFiles files) o =
      (putVariable environment a o).map (withFiles files) := by
  unfold putVariable
  cases ho : o.environmentName?.bind environment.get? with
  | none => rfl
  | some v =>
    have hne : o ≠ .config := by
      rintro rfl
      cases ho
    simp only [has_withFiles files a hne]
    split
    · rfl
    · exact put_withFiles files a o v

theorem putVariables_withFiles (environment : Dict String) :
    (a.withFiles files).putVariables environment =
      (a.putVariables environment).map (withFiles files) := by
  unfold putVariables
  induction Opt.all generalizing a with
  | nil => rfl
  | cons o os ih =>
    rw [List.foldlM_cons, List.foldlM_cons, putVariable_withFiles]
    cases putVariable environment a o with
    | error e => rfl
    | ok b => exact ih b

end Arguments

namespace State

open Arguments (withFiles)

/-- The state if some files with settings are named before what has been read. -/
def withFiles (files : List String) (s : State) : State :=
  { s with arguments := s.arguments.withFiles files }

variable (files : List String) (s : State)

theorem assign_withFiles (a : Arguments) (o : Opt) (v : String) :
    assign (a.withFiles files) o v = (assign a o v).map (Arguments.withFiles files) := by
  unfold assign
  by_cases hc : o = .config
  · subst hc
    simp only [Opt.isRepeatable, Bool.not_true, Bool.and_false, Bool.false_eq_true, if_false]
    exact a.put_withFiles files .config v
  · rw [a.has_withFiles files hc]
    split
    · rfl
    · exact a.put_withFiles files o v

theorem settle_withFiles : (s.withFiles files).settle = s.settle.map (withFiles files) := by
  rcases s with ⟨a, p?, isTrailing, hasCatalog⟩
  rcases p? with _ | ⟨o | _, v?⟩
  · rfl
  · cases v? with
    | none => rfl
    | some v =>
      show (assign (a.withFiles files) o v >>= _) = _
      rw [assign_withFiles]
      show _ = Except.map _ (assign a o v >>= _)
      cases assign a o v <;> rfl
  · show ((if v?.getD "" = "" then _ else _ : Except UsageError Arguments) >>= _) =
      Except.map _ ((if v?.getD "" = "" then _ else _ : Except UsageError Arguments) >>= _)
    split <;> rfl

@[simp] theorem hasCatalog_withFiles : (s.withFiles files).hasCatalog = s.hasCatalog := rfl

@[simp] theorem isTrailing_withFiles : (s.withFiles files).isTrailing = s.isTrailing := rfl

@[simp] theorem waiting?_withFiles : (s.withFiles files).waiting? = s.waiting? := rfl

theorem readCatalog_withFiles (argument : String) :
    (s.withFiles files).readCatalog argument =
      (s.readCatalog argument).map (withFiles files) := by
  unfold readCatalog
  rw [hasCatalog_withFiles, settle_withFiles]
  cases s.hasCatalog with
  | true => rfl
  | false => cases s.settle <;> rfl

theorem raise_withFiles (o : Opt) :
    (s.withFiles files).raise o = (s.raise o).map (withFiles files) := by
  cases o <;> rfl

theorem readOption_withFiles (o : Opt) (value? : Option String) :
    (s.withFiles files).readOption o value? = (s.readOption o value?).map (withFiles files) := by
  unfold readOption
  rw [settle_withFiles]
  split
  · cases s.settle with
    | error e => rfl
    | ok s =>
      cases value? with
      | none => rfl
      | some v =>
        show Except.mapError _ (assign (s.arguments.withFiles files) o v >>= _) =
          Except.map _ (Except.mapError _ (assign s.arguments o v >>= _))
        rw [assign_withFiles]
        cases assign s.arguments o v <;> rfl
  · cases value? with
    | some v => rfl
    | none =>
      cases s.settle with
      | error e => rfl
      | ok s => exact raise_withFiles files s o

theorem readLong_withFiles (text : List Char) :
    (s.withFiles files).readLong text = (s.readLong text).map (withFiles files) := by
  unfold readLong
  dsimp only
  split
  · exact readOption_withFiles files s _ _
  · rfl

theorem readShort_withFiles (letter : Char) (rest : List Char) :
    (s.withFiles files).readShort letter rest =
      (s.readShort letter rest).map (withFiles files) := by
  unfold readShort
  split
  · exact readOption_withFiles files s _ _
  · rfl

theorem mapError_readCatalog_withFiles (argument : String) :
    ((s.withFiles files).readCatalog argument).mapError Stop.misuse =
      ((s.readCatalog argument).mapError Stop.misuse).map (withFiles files) := by
  rw [readCatalog_withFiles]
  cases s.readCatalog argument <;> rfl

theorem readPlain_withFiles (argument : String) :
    (s.withFiles files).readPlain argument = (s.readPlain argument).map (withFiles files) := by
  unfold readPlain
  rw [waiting?_withFiles]
  cases s.waiting? with
  | some o => rfl
  | none => exact mapError_readCatalog_withFiles files s argument

/-- Files that are named before an argument do not change how it is read. -/
theorem read_withFiles (argument : String) :
    (s.withFiles files).read argument = (s.read argument).map (withFiles files) := by
  unfold read
  rw [isTrailing_withFiles, waiting?_withFiles]
  split
  · exact mapError_readCatalog_withFiles files s argument
  · split
    · exact readPlain_withFiles files s argument
    · split
      · rfl
      · exact readLong_withFiles files s _
      · exact readShort_withFiles files s _ _
      · exact readPlain_withFiles files s argument

/-! ## A value that has not been looked at -/

/-- Nothing but a value of a parameter that is waiting to be looked at is between the states. -/
structure Settles (s t : State) : Prop where
  settle_eq : s.settle = .ok t
  waiting?_eq : s.waiting? = none

variable {s} {t : State}

theorem Settles.exists_eq (h : Settles s t) : ∃ a, t = { s with arguments := a, pending? := none } := by
  have hs := h.settle_eq
  unfold settle at hs
  split at hs
  · obtain ⟨a, -, ha⟩ := Except.bind_eq_ok.mp hs
    exact ⟨a, (Except.ok.inj ha).symm⟩
  · next hp => exact ⟨s.arguments, by rw [← Except.ok.inj hs, ← hp]⟩

theorem Settles.settle_right (h : Settles s t) : t.settle = .ok t := by
  obtain ⟨a, rfl⟩ := h.exists_eq
  rfl

theorem Settles.readCatalog_eq (h : Settles s t) (argument : String) :
    s.readCatalog argument = t.readCatalog argument := by
  have hc : s.hasCatalog = t.hasCatalog := by
    obtain ⟨a, rfl⟩ := h.exists_eq
    rfl
  unfold readCatalog
  rw [hc, h.settle_eq, h.settle_right]

theorem Settles.readOption_eq (h : Settles s t) (o : Opt) (value? : Option String) :
    s.readOption o value? = t.readOption o value? := by
  unfold readOption
  rw [h.settle_eq, h.settle_right]

theorem Settles.readPlain_eq (h : Settles s t) (argument : String) :
    s.readPlain argument = t.readPlain argument := by
  have ht : t.waiting? = none := by
    obtain ⟨a, rfl⟩ := h.exists_eq
    rfl
  unfold readPlain
  rw [h.waiting?_eq, ht, h.readCatalog_eq]

theorem settle_trailing (s : State) : ({ s with isTrailing := true } : State).settle =
    s.settle.map ({ · with isTrailing := true }) := by
  rcases s with ⟨a, p?, isTrailing, hasCatalog⟩
  cases p? with
  | none => rfl
  | some p =>
    show (settlePending a p >>= _) = Except.map _ (settlePending a p >>= _)
    cases settlePending a p <;> rfl

/-- The next argument is read alike, unless it only says that no more options follow. -/
theorem Settles.read (h : Settles s t) (argument : String) :
    s.read argument = t.read argument ∨ ∃ s' t', s.read argument = .ok s' ∧
      t.read argument = .ok t' ∧ Settles s' t' := by
  have htrailing : s.isTrailing = t.isTrailing ∧ t.waiting? = none := by
    obtain ⟨a, rfl⟩ := h.exists_eq
    exact ⟨rfl, rfl⟩
  unfold State.read
  rw [h.waiting?_eq, htrailing.1, htrailing.2, h.readCatalog_eq]
  split
  · exact .inl rfl
  · simp only [Option.any_none, Bool.false_eq_true, if_false]
    split
    · refine .inr ⟨_, _, rfl, rfl, ?_, h.waiting?_eq⟩
      rw [settle_trailing, h.settle_eq]
      rfl
    · left
      unfold readLong
      simp only [h.readOption_eq]
    · left
      unfold readShort
      simp only [h.readOption_eq]
    · exact .inl (h.readPlain_eq argument)

end State

/-! ## Arguments that only name files -/

/-- What the arguments of a call say, some of which have been read. -/
def parseFrom (environment : Dict String) (s : State) (arguments : List String) :
    Except Stop Arguments := do
  let s ← arguments.foldlM State.read s
  let s ← s.settle.mapError Stop.misuse
  (s.arguments.putVariables environment).mapError Stop.misuse

theorem parse_eq_parseFrom (environment : Dict String) (arguments : List String) :
    parse environment arguments = parseFrom environment {} arguments := rfl

theorem parseFrom_nil (environment : Dict String) (s : State) :
    parseFrom environment s [] = (do
      let s ← s.settle.mapError Stop.misuse
      (s.arguments.putVariables environment).mapError Stop.misuse) := rfl

theorem parseFrom_cons (environment : Dict String) (s : State) (argument : String)
    (arguments : List String) : parseFrom environment s (argument :: arguments) =
      s.read argument >>= fun s => parseFrom environment s arguments := by
  unfold parseFrom
  rw [List.foldlM_cons]
  cases s.read argument <;> rfl

theorem parseFrom_withFiles (environment : Dict String) (files : List String) (s : State)
    (arguments : List String) : parseFrom environment (s.withFiles files) arguments =
      (parseFrom environment s arguments).map (Arguments.withFiles files) := by
  induction arguments generalizing s with
  | nil =>
    rw [parseFrom_nil, parseFrom_nil, s.settle_withFiles]
    cases s.settle with
    | error e => rfl
    | ok s =>
      show ((s.arguments.withFiles files).putVariables environment).mapError _ =
        Except.map _ ((s.arguments.putVariables environment).mapError _)
      rw [Arguments.putVariables_withFiles]
      cases s.arguments.putVariables environment <;> rfl
  | cons argument arguments ih =>
    rw [parseFrom_cons, parseFrom_cons, s.read_withFiles]
    cases s.read argument with
    | error e => rfl
    | ok s => exact ih s

/-- It makes no difference when a value is looked at. -/
theorem parseFrom_of_settles (environment : Dict String) {s t : State} (h : s.Settles t)
    (arguments : List String) :
    parseFrom environment s arguments = parseFrom environment t arguments := by
  induction arguments generalizing s t with
  | nil =>
    rw [parseFrom_nil, parseFrom_nil, h.settle_eq, h.settle_right]
  | cons argument arguments ih =>
    rw [parseFrom_cons, parseFrom_cons]
    rcases h.read argument with heq | ⟨s', t', hs, ht, h'⟩
    · rw [heq]
    · rw [hs, ht]
      exact ih h'

/-- Arguments that do nothing but name files with settings, and these files. -/
inductive NamesFiles : List String → List String → Prop
  | nil : NamesFiles [] []
  | attached (file : String) {arguments files : List String} :
    NamesFiles arguments files → NamesFiles (("--config=" ++ file) :: arguments) (file :: files)
  | separate {file : String} {arguments files : List String} : isPlain file →
    NamesFiles arguments files → NamesFiles ("--config" :: file :: arguments) (file :: files)

theorem parse_attached (environment : Dict String) (file : String) (arguments : List String) :
    parse environment (("--config=" ++ file) :: arguments) =
      (parse environment arguments).map (Arguments.withFiles [file]) := by
  have hread : ({} : State).read ("--config=" ++ file) = .ok (({} : State).withFiles [file]) := by
    have htext : ("--config=" ++ file).toList = "--config=".toList ++ file.toList :=
      String.toList_append
    unfold State.read
    rw [htext]
    show Except.ok (({} : State).withFiles [String.ofList file.toList]) = _
    rw [String.ofList_toList]
  rw [parse_eq_parseFrom, parseFrom_cons, hread]
  exact parseFrom_withFiles environment [file] {} arguments

theorem parse_separate (environment : Dict String) {file : String} (h : isPlain file)
    (arguments : List String) :
    parse environment ("--config" :: file :: arguments) =
      (parse environment arguments).map (Arguments.withFiles [file]) := by
  let waiting : State := { pending? := some ⟨.option .config, none⟩ }
  let given : State := waiting.give .config file
  have hname : ({} : State).read "--config" = .ok waiting := rfl
  have hvalue : waiting.read file = .ok given := by
    unfold State.read
    split
    · next ht => cases ht
    · split
      · rfl
      · split
        · next hl => simp [isPlain, hl, String.ext_iff] at h
        · next hl => simp [isPlain, hl, String.ext_iff] at h
        · next hl => simp [isPlain, hl, String.ext_iff] at h
        · rfl
  have hsettles : given.Settles (({} : State).withFiles [file]) := ⟨rfl, rfl⟩
  rw [parse_eq_parseFrom, parseFrom_cons, hname, Except.ok_bind, parseFrom_cons, hvalue,
    Except.ok_bind, parseFrom_of_settles environment hsettles]
  exact parseFrom_withFiles environment [file] {} arguments

/-- Files with settings that are named first change nothing else in what a call asks for. -/
theorem parse_append (environment : Dict String) {named files : List String}
    (h : NamesFiles named files) (rest : List String) :
    parse environment (named ++ rest) =
      (parse environment rest).map (Arguments.withFiles files) := by
  have hmap (file : String) (files : List String) (x : Except Stop Arguments) :
      (x.map (Arguments.withFiles files)).map (Arguments.withFiles [file]) =
        x.map (Arguments.withFiles (file :: files)) := by
    cases x <;> rfl
  induction h with
  | nil =>
    rw [List.nil_append]
    cases parse environment rest <;> rfl
  | attached file h ih =>
    rw [List.cons_append, parse_attached, ih, hmap]
  | separate hf h ih =>
    rw [List.cons_append, List.cons_append, parse_separate environment hf, ih, hmap]

/-! ## An option without its value -/

/-- The parameter that has been read cannot be given what it needs any more. -/
def State.Stuck (s : State) : Prop := ∃ e, s.settle = .error e

theorem State.Stuck.readCatalog {s : State} (h : s.Stuck) (argument : String) :
    ∃ e, s.readCatalog argument = .error e := by
  obtain ⟨e, he⟩ := h
  unfold State.readCatalog
  rw [he]
  split
  · exact ⟨_, rfl⟩
  · exact ⟨e, rfl⟩

theorem State.Stuck.readOption {s : State} (h : s.Stuck) (o : Opt) (value? : Option String) :
    ∃ e, s.readOption o value? = .error e := by
  obtain ⟨e, he⟩ := h
  unfold State.readOption
  rw [he]
  split
  · exact ⟨_, rfl⟩
  · split
    · exact ⟨_, rfl⟩
    · exact ⟨_, rfl⟩

theorem State.Stuck.trailing {s : State} (h : s.Stuck) :
    ({ s with isTrailing := true } : State).Stuck := by
  obtain ⟨e, he⟩ := h
  exact ⟨e, by rw [settle_trailing, he]; rfl⟩

/-- An argument that is no value does not help an option that waits for one. -/
theorem State.Stuck.read {s : State} (h : s.Stuck) {argument : String}
    (hs : s.waiting?.any Opt.takesHyphens = false)
    (ha : s.isTrailing = true ∨ isPlain argument = false) :
    (∃ e, s.read argument = .error e) ∨ s.read argument = .ok { s with isTrailing := true } := by
  have hcatalog : ∃ e, (s.readCatalog argument).mapError Stop.misuse = .error e := by
    obtain ⟨e, he⟩ := h.readCatalog argument
    exact ⟨.misuse e, by rw [he]; rfl⟩
  unfold State.read
  split
  · exact .inl hcatalog
  · next htrailing =>
    have hplain : isPlain argument = false := ha.resolve_left htrailing
    rw [hs]
    simp only [Bool.false_eq_true, if_false]
    split
    · exact .inr rfl
    · left
      unfold State.readLong
      dsimp only
      split
      · exact h.readOption _ _
      · exact ⟨_, rfl⟩
    · left
      unfold State.readShort
      split
      · exact h.readOption _ _
      · exact ⟨_, rfl⟩
    · next hne1 hne2 hne3 =>
      exfalso
      simp only [isPlain, Bool.or_eq_false_iff, decide_eq_false_iff_not, ne_eq,
        Decidable.not_not] at hplain
      obtain ⟨hhyphen, hhead⟩ := hplain
      obtain ⟨cs, hcs⟩ := List.head?_eq_some_iff.mp hhead
      cases cs with
      | nil => exact hhyphen (String.ext hcs)
      | cons c cs => exact hne3 c cs hcs

theorem parseFrom_of_stuck_trailing (environment : Dict String) {s : State} (h : s.Stuck)
    (hs : s.isTrailing = true) (arguments : List String) :
    ∃ e, parseFrom environment s arguments = .error e := by
  cases arguments with
  | nil =>
    obtain ⟨e, he⟩ := h
    exact ⟨.misuse e, by rw [parseFrom_nil, he]; rfl⟩
  | cons argument arguments =>
    obtain ⟨e, he⟩ := h.readCatalog argument
    refine ⟨.misuse e, ?_⟩
    rw [parseFrom_cons, State.read, if_pos hs, he]
    rfl

/-- Without a value after it, the option for files with settings is not accepted. -/
theorem parse_config_without_value (environment : Dict String) (arguments : List String)
    (h : ∀ argument ∈ arguments.head?, isPlain argument = false) :
    ∃ e, parse environment ("--config" :: arguments) = .error e := by
  let waiting : State := { pending? := some ⟨.option .config, none⟩ }
  have hstuck : waiting.Stuck := ⟨_, rfl⟩
  have hname : ({} : State).read "--config" = .ok waiting := rfl
  rw [parse_eq_parseFrom, parseFrom_cons, hname, Except.ok_bind]
  cases arguments with
  | nil =>
    obtain ⟨e, he⟩ := hstuck
    exact ⟨.misuse e, by rw [parseFrom_nil, he]; rfl⟩
  | cons argument arguments =>
    rw [parseFrom_cons]
    rcases hstuck.read rfl (.inr (h argument rfl)) with ⟨e, he⟩ | hread
    · exact ⟨e, by rw [he]; rfl⟩
    · rw [hread, Except.ok_bind]
      exact parseFrom_of_stuck_trailing environment hstuck.trailing rfl arguments

/-! ## Which files are found -/

theorem attachedFile?_eq_some {argument file : String} :
    attachedFile? argument = some file ↔ argument = "--config=" ++ file := by
  constructor
  · intro h
    unfold attachedFile? at h
    split at h
    · next name v hfield =>
      obtain ⟨htext, -⟩ := Text.firstField?_eq_some.mp hfield
      split at h
      · next hname =>
        obtain rfl := Option.some.inj h
        obtain rfl : name = "--config".toList := by rw [← hname, String.toList_ofList]
        rw [← String.ofList_toList (s := argument), htext]
        show String.ofList ("--config=".toList ++ v) = _
        rw [String.ofList_append, String.ofList_toList]
      · cases h
    · cases h
  · rintro rfl
    have hfield : Text.firstField? '=' ("--config=" ++ file).toList =
        some ("--config".toList, file.toList) := by
      rw [String.toList_append]
      exact Text.firstField?_eq_some.mpr ⟨rfl, by decide⟩
    unfold attachedFile?
    rw [hfield]
    simp

theorem settingsFiles_attached (file : String) (arguments : List String) :
    settingsFiles (("--config=" ++ file) :: arguments) = file :: settingsFiles arguments := by
  have hfile : attachedFile? "--config" = none := rfl
  have hattached : attachedFile? ("--config=" ++ file) = some file := attachedFile?_eq_some.mpr rfl
  have hne : "--config=" ++ file ≠ "--config" := by
    intro h
    rw [h, hfile] at hattached
    cases hattached
  rw [settingsFiles, settingsFilesFrom, if_neg hne, hattached]
  rfl

theorem settingsFiles_separate {file : String} (h : isPlain file) (arguments : List String) :
    settingsFiles ("--config" :: file :: arguments) = file :: settingsFiles arguments := by
  have hne : file ≠ "--config" := by
    rintro rfl
    cases h
  have hattached : attachedFile? file = none := by
    cases hf : attachedFile? file with
    | none => rfl
    | some rest =>
      obtain rfl := attachedFile?_eq_some.mp hf
      have hlong : "--config=" ++ rest ≠ "-" := by
        intro hr
        have htext := congrArg String.toList hr
        rw [String.toList_append] at htext
        cases htext
      simp [isPlain, hlong] at h
  rw [settingsFiles, settingsFilesFrom, if_pos rfl, settingsFilesFrom, if_neg hne, hattached]
  simp only [h, Bool.and_self, if_true]
  rfl

theorem settingsFiles_of_ne {argument : String} (hc : argument ≠ "--config")
    (hf : attachedFile? argument = none) (arguments : List String) :
    settingsFiles (argument :: arguments) = [] := by
  rw [settingsFiles, settingsFilesFrom, if_neg hc, hf]
  rfl

/-- The files that are found are those that the first arguments name, up to an argument that does
anything else. -/
theorem exists_namesFiles (environment : Dict String) :
    ∀ (arguments : List String) {a : Arguments}, parse environment arguments = .ok a →
    ∃ named rest, arguments = named ++ rest ∧ NamesFiles named (settingsFiles arguments) ∧
      ∀ argument ∈ rest.head?, argument ≠ "--config" ∧ attachedFile? argument = none
  | [], _, _ => ⟨[], [], rfl, .nil, by simp⟩
  | argument :: arguments, a, h => by
    by_cases hc : argument = "--config"
    · subst hc
      match arguments with
      | [] =>
        obtain ⟨e, he⟩ := parse_config_without_value environment [] (by simp)
        rw [h] at he
        cases he
      | file :: arguments =>
        cases hfile : isPlain file with
        | false =>
          obtain ⟨e, he⟩ := parse_config_without_value environment (file :: arguments)
            (by simp [hfile])
          rw [h] at he
          cases he
        | true =>
          rw [parse_separate environment hfile] at h
          obtain ⟨b, hb, -⟩ := Except.map_eq_ok.mp h
          obtain ⟨named, rest, rfl, hnamed, hrest⟩ := exists_namesFiles environment arguments hb
          rw [settingsFiles_separate hfile]
          exact ⟨"--config" :: file :: named, rest, rfl, .separate hfile hnamed, hrest⟩
    · cases hf : attachedFile? argument with
      | some file =>
        obtain rfl := attachedFile?_eq_some.mp hf
        rw [parse_attached] at h
        obtain ⟨b, hb, -⟩ := Except.map_eq_ok.mp h
        obtain ⟨named, rest, rfl, hnamed, hrest⟩ := exists_namesFiles environment arguments hb
        rw [settingsFiles_attached]
        exact ⟨("--config=" ++ file) :: named, rest, rfl, .attached file hnamed, hrest⟩
      | none =>
        rw [settingsFiles_of_ne hc hf]
        exact ⟨[], argument :: arguments, rfl, .nil, by simp [hc, hf]⟩

/-- The files of an accepted call that are found before its arguments are read are those that its
first arguments name. What follows them, from the first argument on that does anything else, makes
the rest of the call, and all files are found exactly if it names none. -/
theorem settingsFiles_of_parse {environment : Dict String} {arguments : List String}
    {a : Arguments} (h : parse environment arguments = .ok a) :
    ∃ named rest b, arguments = named ++ rest ∧ NamesFiles named (settingsFiles arguments) ∧
      (∀ argument ∈ rest.head?, argument ≠ "--config" ∧
        ∀ file, argument ≠ "--config=" ++ file) ∧
      parse environment rest = .ok b ∧
      a = { b with config := settingsFiles arguments ++ b.config } ∧
      (settingsFiles arguments = a.config ↔ b.config = []) := by
  obtain ⟨named, rest, hsplit, hnamed, hrest⟩ := exists_namesFiles environment arguments h
  have happend := parse_append environment hnamed rest
  rw [← hsplit, h] at happend
  obtain ⟨b, hb, rfl⟩ := Except.map_eq_ok.mp happend.symm
  refine ⟨named, rest, b, hsplit, hnamed, fun argument hhead => ?_, hb, rfl, ?_⟩
  · obtain ⟨hc, hf⟩ := hrest argument hhead
    refine ⟨hc, fun file hfile => ?_⟩
    rw [attachedFile?_eq_some.mpr hfile] at hf
    cases hf
  · show settingsFiles arguments = settingsFiles arguments ++ b.config ↔ _
    rw [List.self_eq_append_right]

/-- The third file is named after an option with another effect. -/
theorem settingsFiles_of_parse_interrupted :
    let arguments := ["--config", "a.yaml", "--config=b.yaml", "--html", "--config", "c.yaml"]
    ∃ a, parse [] arguments = .ok a ∧ a.html = true ∧
      settingsFiles arguments = ["a.yaml", "b.yaml"] ∧
      ∃ rest b, parse [] rest = .ok b ∧ b.config = ["c.yaml"] ∧
        a = { b with config := settingsFiles arguments ++ b.config } := by
  intro arguments
  have h : parse [] arguments =
      .ok { config := ["a.yaml", "b.yaml", "c.yaml"], html := true } := rfl
  obtain ⟨named, rest, b, -, -, -, hb, ha, -⟩ := settingsFiles_of_parse h
  have hfiles : settingsFiles arguments = ["a.yaml", "b.yaml"] := rfl
  have hconfig : ["a.yaml", "b.yaml"] ++ ["c.yaml"] = ["a.yaml", "b.yaml"] ++ b.config :=
    congrArg Arguments.config ha
  exact ⟨_, h, rfl, hfiles, rest, b, hb, (List.append_cancel_left hconfig).symm, ha⟩

/-- A file that is named after the catalog is not found. -/
theorem settingsFiles_ne :
    ¬ ∀ environment arguments a, parse environment arguments = .ok a →
      settingsFiles arguments = a.config := by
  intro h
  have hparse : parse [] ["c.json", "--config", "x"] =
      .ok { config := ["x"], catalog := some "c.json" } := rfl
  cases h _ _ _ hparse

end MicroFrontends.CommandLine
