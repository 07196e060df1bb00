import GtpLibrary.GitlabRunner.Scripts

/-!
# The container of a job

The name is expanded in three places. In `podman exec` a second word of it would be taken for
the command, so that the stages address one container only if the name is one word; then it is
the name itself, and it ends in the id of the job.
-/

namespace GtpLibrary.GitlabRunner

open Lib.Numerals Lib.Words

section
variable {podman : List Text → Option Action} {matching : Text → List Text} {job other : Job} {name : Text}

/-! ## The name -/

/-- What stands behind the fixed beginning. -/
def nameRest (job : Job) : Text :=
  job.runnerId ++ ("--ns-".toList ++ (job.projectRootNamespace ++ ("--project-".toList ++ (job.projectTitle ++
    ("--commit-".toList ++ (job.commitSha ++ ("--job-".toList ++ numeral job.jobId)))))))

/-- Every name begins alike. -/
theorem containerName_eq (job : Job) : containerName job = "gitlab-runner--id-".toList ++ nameRest job := by
  have front : "gitlab-runner".toList ++ "--id-".toList = "gitlab-runner--id-".toList := rfl
  unfold containerName nameRest
  rw [front]
  simp only [List.append_assoc]

/-- The digits of an id stand in a name. -/
theorem nameChar_numeral {n : Nat} {c : Char} (member : c ∈ numeral n) : nameChar c = true := by
  have digit := isDigit_of_mem_numeral member
  unfold nameChar Char.isAlphanum
  rw [digit]
  simp

/-- So an id is part of a name as a whole. -/
theorem all_nameChar_numeral (n : Nat) : (numeral n).all nameChar = true :=
  List.all_eq_true.2 fun _ => nameChar_numeral

/-- No character of a name is a blank. -/
theorem blank_of_nameChar {c : Char} (char : nameChar c = true) : blank c = false := by
  by_contra isBlank
  rw [Bool.not_eq_false] at isBlank
  simp only [blank, Bool.or_eq_true, decide_eq_true_eq] at isBlank
  rcases isBlank with (rfl | rfl) | rfl <;> exact absurd char (by decide)

/-- The name is valid if its parts are made of characters of names. -/
theorem validName_iff : ValidName (containerName job) ↔
    job.runnerId.all nameChar ∧ job.projectRootNamespace.all nameChar ∧ job.projectTitle.all nameChar ∧
      job.commitSha.all nameChar := by
  have head : (containerName job).head? = some 'g' := by
    rw [containerName_eq]
    rfl
  have fixed : ∀ t ∈ ["gitlab-runner--id-".toList, "--ns-".toList, "--project-".toList, "--commit-".toList,
      "--job-".toList],
      t.all nameChar = true := by decide
  unfold ValidName
  rw [head, containerName_eq, nameRest]
  simp only [List.forall_mem_cons] at fixed
  obtain ⟨f1, f2, f3, f4, f5, -⟩ := fixed
  simp only [List.all_append, f1, f2, f3, f4, f5, all_nameChar_numeral, Bool.true_and, Bool.and_true, Bool.and_eq_true,
    Option.any_some]
  exact and_iff_right (by decide)

/-- Jobs with different ids have different names. -/
theorem containerName_ne (different : job.jobId ≠ other.jobId) : containerName job ≠ containerName other := by
  intro same
  have dash : ∀ n, '-' ∉ numeral n := fun n => not_mem_numeral (by decide) n
  have last : ∀ job : Job, (containerName job).rtakeWhile (· ≠ '-') = numeral job.jobId := by
    intro job
    have digits : ∀ c ∈ (numeral job.jobId).reverse, decide (c ≠ '-') = true := by
      intro c member
      rw [List.mem_reverse] at member
      exact decide_eq_true fun isDash => dash job.jobId (isDash ▸ member)
    unfold containerName
    rw [List.rtakeWhile, List.reverse_append, List.takeWhile_append_of_pos digits, List.reverse_append]
    simp
  have ids := congrArg (List.rtakeWhile (· ≠ '-')) same
  rw [last, last] at ids
  exact different (numeral_injective ids)

/-! ## The commands -/

/-- A command of another program is nothing to `podman`. -/
theorem Documented.foreign_fixed (documented : Documented podman) {program : Text} (other : program ≠ "podman".toList)
    (words : List Word) : podman (expand matching (.fixed program :: words)) = none :=
  documented.foreign _ fun same => other (Option.some.inj same)

/-- A volume is one word, whatever the directory is. -/
theorem expand_volume (pathnames : Pathnames matching) (directory : PlainText) {mode : Text}
    (plain : ∀ c ∈ mode, special c = false) :
    (volume directory mode).expand matching = [directory.text ++ ":".toList ++ directory.text ++ mode] := by
  have text : [Piece.value directory.text, .kept ":".toList, .value directory.text, .kept mode].flatMap Piece.text =
      directory.text ++ ":".toList ++ directory.text ++ mode := by
    simp [Piece.text]
  rw [← text]
  apply pathnames.expand_plain
  · intro piece member t same c inside
    subst same
    simp only [List.mem_cons, List.not_mem_nil, or_false, reduceCtorEq, Piece.value.injEq, false_or] at member
    rcases member with rfl | rfl <;> exact directory.solid c inside
  · rw [text]
    intro c member
    simp only [List.mem_append] at member
    rcases member with ((inside | colon) | inside) | last
    · exact directory.plain c inside
    · rw [List.mem_singleton.1 colon]
      rfl
    · exact directory.plain c inside
    · exact plain c last
  · rw [text]
    exact fun empty => directory.filled (List.append_eq_nil_iff.1 (List.append_eq_nil_iff.1
      (List.append_eq_nil_iff.1 empty).1).1).1

/-- Only the second command is for podman. -/
theorem filterMap_second {words more : List Text} (foreign : podman words = none) :
    [words, more].filterMap podman = (podman more).toList := by
  rw [List.filterMap_cons_none foreign]
  cases reads : podman more with
  | none => rw [List.filterMap_cons_none reads]; rfl
  | some action => rw [List.filterMap_cons_some reads]; rfl

/-- Only the first command is for podman. -/
theorem filterMap_first {words more : List Text} (foreign : podman more = none) :
    [words, more].filterMap podman = (podman words).toList := by
  have last : [more].filterMap podman = [] := List.filterMap_cons_none foreign
  cases reads : podman words with
  | none => rw [List.filterMap_cons_none reads, last]; rfl
  | some action => rw [List.filterMap_cons_some reads, last]; rfl

/-- The stage prepare asks podman for one thing. -/
theorem filterMap_prepare (documented : Documented podman) :
    (prepare matching job).filterMap podman = (podman (expand matching (podmanRun job))).toList :=
  filterMap_second (documented.foreign_fixed (by decide) _)

/-- The stage run asks podman for one thing. -/
theorem filterMap_run (documented : Documented podman) {arguments : List Text}
    (inside : arguments.getD 1 [] ∉ runnerStages) :
    (run matching job arguments).filterMap podman = (podman (expand matching (podmanExec job arguments))).toList := by
  unfold run
  rw [if_neg inside]
  exact filterMap_second (documented.foreign_fixed (by decide) _)

/-- The stage cleanup asks podman for one thing. -/
theorem filterMap_cleanup (documented : Documented podman) :
    (cleanup matching job).filterMap podman = (podman (expand matching (podmanStop job))).toList :=
  filterMap_first (documented.foreign_fixed (by decide) _)

/-- The words of `podman run` for a name that stays together. -/
theorem expand_podmanRun (pathnames : Pathnames matching)
    (together : (nameOption job).expand matching = ["--name=".toList ++ containerName job]) :
    expand matching (podmanRun job) = ["podman".toList, "run".toList] ++ job.options (containerName job) ++
      (expand matching [.joined [.value job.jobImage]] ++ ["sleep".toList, "infinity".toList]) := by
  have readOnly := expand_volume pathnames job.pwd (forall_eq_false (show ":ro".toList.any special = false by decide))
  have readWrite := expand_volume pathnames job.projectDir
    (forall_eq_false (show ":rw".toList.any special = false by decide))
  unfold podmanRun
  simp only [expand_cons, together, readOnly, readWrite]
  simp [expand, Word.expand, Job.options, options]

/-- The words of `podman exec`: the name is the only one that may split. -/
theorem expand_podmanExec (arguments : List Text) : expand matching (podmanExec job arguments) =
    ["podman".toList, "exec".toList, "-it".toList] ++
      ((nameWord job).expand matching ++ ["/bin/sh".toList, "-c".toList, cmd arguments]) := by
  unfold podmanExec
  simp only [expand_cons]
  rfl

/-- The words of `podman stop`: the name is the only one that may split. -/
theorem expand_podmanStop : expand matching (podmanStop job) =
    ["podman".toList, "stop".toList, "-t0".toList] ++ (nameWord job).expand matching := by
  unfold podmanStop
  simp only [expand_cons]
  rw [show expand matching [] = [] from rfl, List.append_nil]
  rfl

/-! ## A name of one word -/

/-- No blank stands in the name. -/
def Together (job : Job) : Prop := ∀ c ∈ containerName job, blank c = false

/-- A name without a blank is one option. -/
theorem Together.nameOption (together : Together job) (noPath : NoSuchPath matching) :
    (nameOption job).expand matching = ["--name=".toList ++ containerName job] := by
  have text : [Piece.kept "--name=".toList, .value (containerName job)].flatMap Piece.text =
      "--name=".toList ++ containerName job := by
    simp [Piece.text]
  have one : fields [.kept "--name=".toList, .value (containerName job)] =
      [[Piece.kept "--name=".toList, .value (containerName job)].flatMap Piece.text] := by
    apply fields_clean
    · intro piece member t same c inside
      subst same
      simp only [List.mem_cons, List.not_mem_nil, or_false, reduceCtorEq, Piece.value.injEq, false_or] at member
      subst member
      exact together c inside
    · rw [text]
      exact List.append_ne_nil_of_left_ne_nil (by decide) _
  show (fields _).flatMap matching = _
  rw [one, text, List.flatMap_singleton, containerName_eq]
  exact noPath.option (nameRest job)

/-- A name without a blank is one word. -/
theorem Together.nameWord (together : Together job) (noPath : NoSuchPath matching) :
    (nameWord job).expand matching = [containerName job] := by
  have text : [Piece.value (containerName job)].flatMap Piece.text = containerName job := List.flatMap_singleton ..
  have one : fields [.value (containerName job)] = [[Piece.value (containerName job)].flatMap Piece.text] := by
    apply fields_clean
    · intro piece member t same c inside
      rw [List.mem_singleton.1 member, Piece.value.injEq] at same
      exact together c (same ▸ inside)
    · rw [text, containerName_eq]
      exact List.append_ne_nil_of_left_ne_nil (by decide) _
  show (fields _).flatMap matching = _
  rw [one, text, List.flatMap_singleton, containerName_eq]
  exact noPath.container (nameRest job)

/-- The first word of the name begins like the name, and a blank makes more words. -/
theorem expand_nameWord (pathnames : Pathnames matching) (noPath : NoSuchPath matching) (job : Job) :
    ∃ behind more, (nameWord job).expand matching = ("gitlab-runner--id-".toList ++ behind) :: more ∧
      (¬ Together job → more ≠ []) := by
  have filled : "gitlab-runner--id-".toList ≠ [] := by decide
  have solid : ∀ c ∈ "gitlab-runner--id-".toList, blank c = false := forall_eq_false (by decide)
  obtain ⟨behind, later, eq⟩ := fields_value_append filled solid (nameRest job)
  rw [← containerName_eq] at eq
  refine ⟨behind, later.flatMap matching, ?_, ?_⟩
  · show (fields _).flatMap matching = _
    rw [eq, List.flatMap_cons, noPath.container]
    rfl
  · intro apart
    obtain ⟨c, member, separates⟩ : ∃ c ∈ containerName job, blank c = true := by
      simpa [Together] using apart
    have two := two_le_length_fields member separates ?_ ?_
    · rw [eq, List.length_cons] at two
      have enough := pathnames.length_le later
      exact List.length_pos_iff.1 (by omega)
    · rw [containerName_eq]
      rintro d ⟨⟩
      rfl
    · intro e last
      unfold containerName at last
      rw [List.getLast?_append_of_ne_nil _ (numeral_ne_nil _)] at last
      exact blank_of_nameChar (nameChar_numeral (List.mem_of_mem_getLast? last))

/-! ## The stages -/

/-- No name looks like an option. -/
theorem isOption_containerName (rest : Text) : isOption ("gitlab-runner--id-".toList ++ rest) = false := by
  unfold isOption
  rw [show ("gitlab-runner--id-".toList ++ rest).head? = some 'g' from rfl]
  rfl

/-- The characters of a plain job are none that the shell would split at. -/
theorem Job.Plain.together (plain : job.Plain matching) : Together job := by
  have valid := validName_iff.2 ⟨plain.runnerId, plain.projectRootNamespace, plain.projectTitle, plain.commitSha⟩
  intro c member
  exact blank_of_nameChar (List.all_eq_true.1 (Bool.and_eq_true_iff.1 valid).2 c member)

/-- A plain job has its own name in all of its commands. -/
theorem addresses_of_plain (pathnames : Pathnames matching) (noPath : NoSuchPath matching) (documented : Documented podman)
    (plain : job.Plain matching) : Addresses podman matching job (containerName job) := by
  have together := plain.together
  have word := together.nameWord noPath
  have noOption : isOption (containerName job) = false := containerName_eq job ▸ isOption_containerName (nameRest job)
  constructor
  · exact validName_iff.2 ⟨plain.runnerId, plain.projectRootNamespace, plain.projectTitle, plain.commitSha⟩
  · rw [filterMap_prepare documented, expand_podmanRun pathnames (together.nameOption noPath), plain.jobImage]
    exact congrArg Option.toList (documented.run _ _ _ _ _ plain.noOption)
  · intro arguments inside
    rw [filterMap_run documented inside, expand_podmanExec, word]
    exact congrArg Option.toList (documented.exec _ _ noOption)
  · rw [filterMap_cleanup documented, expand_podmanStop, word]
    exact congrArg Option.toList (documented.stop _ noOption)

/-- In `podman exec` a second word of the name would be the command. -/
theorem Addresses.together (pathnames : Pathnames matching) (noPath : NoSuchPath matching) (documented : Documented podman)
    (addresses : Addresses podman matching job name) : Together job ∧ name = containerName job := by
  obtain ⟨behind, more, words, apart⟩ := expand_nameWord pathnames noPath job
  have executes := addresses.runs ["/script".toList, "build_script".toList] (by decide)
  have reads := documented.exec _ (more ++ ["/bin/sh".toList, "-c".toList, cmd ["/script".toList, "build_script".toList]])
    (isOption_containerName behind)
  rw [filterMap_run documented (by decide), expand_podmanExec, words] at executes
  change (podman (_ ++ _ :: (more ++ _))).toList = _ at executes
  rw [reads] at executes
  simp only [Option.toList_some, List.cons.injEq, Action.executes.injEq, and_true] at executes
  obtain ⟨first, command⟩ := executes
  have none : more = [] := List.append_left_eq_self.1 command
  have together : Together job := by
    by_contra blank
    exact apart blank none
  refine ⟨together, ?_⟩
  rw [together.nameWord noPath, none, List.cons.injEq] at words
  rw [← first, words.1]

/-- A job that has one name in all of its commands is plain. -/
theorem plain_of_addresses (pathnames : Pathnames matching) (noPath : NoSuchPath matching) (documented : Documented podman)
    (addresses : Addresses podman matching job name) : job.Plain matching ∧ name = containerName job := by
  obtain ⟨together, rfl⟩ := addresses.together pathnames noPath documented
  obtain ⟨runnerId, projectRootNamespace, projectTitle, commitSha⟩ := validName_iff.1 addresses.valid
  have starts := addresses.prepares
  rw [filterMap_prepare documented, expand_podmanRun pathnames (together.nameOption noPath)] at starts
  have image : expand matching [.joined [.value job.jobImage]] = [job.jobImage] ∧ isOption job.jobImage = false := by
    cases words : expand matching [.joined [.value job.jobImage]] with
    | nil =>
      -- `sleep` would be the image
      rw [words, List.nil_append, Job.options, documented.run _ _ _ _ _ (by decide)] at starts
      simp only [Option.toList_some, List.cons.injEq, Action.starts.injEq, and_true, true_and] at starts
      exact absurd starts.2.1 (by decide)
    | cons word more =>
      rw [words] at starts
      change (podman (_ ++ word :: (more ++ _))).toList = _ at starts
      cases dash : isOption word with
      | true =>
        rw [Option.toList_eq_singleton_iff] at starts
        exact absurd starts (documented.runOption _ _ _ _ _ _ _ dash)
      | false =>
        rw [Job.options, documented.run _ _ _ _ _ dash] at starts
        simp only [Option.toList_some, List.cons.injEq, Action.starts.injEq, and_true, true_and] at starts
        obtain ⟨rfl, command⟩ := starts
        rw [List.append_left_eq_self.1 command]
        exact ⟨rfl, dash⟩
  exact ⟨⟨runnerId, projectRootNamespace, projectTitle, commitSha, image.1, image.2⟩, rfl⟩

end

/-! ## A reading of command lines -/

/-- The words in front of the first one that is no option. `--volume` takes the next word, and
`--` ends the options. -/
def splitOptions : List Text → List Text × List Text
  | [] => ([], [])
  | [word] => if isOption word then ([word], []) else ([], [word])
  | word :: value :: words =>
    if isOption word then
      if word = "--".toList then ([word], value :: words)
      else if word = "--volume".toList then
        (word :: value :: (splitOptions words).1, (splitOptions words).2)
      else (word :: (splitOptions (value :: words)).1, (splitOptions (value :: words)).2)
    else ([], word :: value :: words)

/-- What a subcommand asks for. -/
def action (subcommand : Text) (options : List Text) (word : Text) (more : List Text) : Option Action :=
  if subcommand = "run".toList then some (.starts options word more)
  else if subcommand = "exec".toList then some (.executes word more)
  else if subcommand = "stop".toList then some (.stops (word :: more))
  else none

/-- A reading of the command line that is as podman documents it. -/
def readPodman : List Text → Option Action
  | program :: subcommand :: words =>
    if program = "podman".toList then
      match splitOptions words with
      | (_, []) => none
      | (options, word :: more) => action subcommand options word more
    else none
  | _ => none

/-- The reading, once the options have been split off. -/
theorem readPodman_split {subcommand word : Text} {words options more : List Text}
    (split : splitOptions words = (options, word :: more)) :
    readPodman ("podman".toList :: subcommand :: words) = action subcommand options word more := by
  unfold readPodman
  simp only [if_true, split]

/-- The options end at the first word that is none. -/
theorem splitOptions_word {word : Text} (noOption : isOption word = false) (more : List Text) :
    splitOptions (word :: more) = ([], word :: more) := by
  cases more <;> simp [splitOptions, noOption]

/-- A word that looks like an option is read as one. -/
theorem splitOptions_option {word : Text} (option : isOption word = true) (more : List Text) :
    (splitOptions (word :: more)).1 ≠ [] := by
  cases more with
  | nil => simp [splitOptions, option]
  | cons value more =>
    rw [splitOptions, if_pos option]
    split
    · exact List.cons_ne_nil word []
    · split
      · exact List.cons_ne_nil word _
      · exact List.cons_ne_nil word _

/-- An option that stands alone. -/
def Flag (word : Text) : Prop := isOption word = true ∧ word ≠ "--".toList ∧ word ≠ "--volume".toList

instance (word : Text) : Decidable (Flag word) := inferInstanceAs (Decidable (_ ∧ _))

/-- An option without a value takes one word. -/
theorem splitOptions_flag {word : Text} (flag : Flag word) (value : Text) (words : List Text) :
    splitOptions (word :: value :: words) =
      (word :: (splitOptions (value :: words)).1, (splitOptions (value :: words)).2) := by
  obtain ⟨option, goesOn, alone⟩ := flag
  rw [splitOptions, if_pos option, if_neg goesOn, if_neg alone]

/-- The name is given behind an equals sign. -/
theorem flag_name (name : Text) : Flag ("--name=".toList ++ name) := by
  simp [Flag, isOption]

/-- A volume takes the word behind it. -/
theorem splitOptions_volume (value : Text) (words : List Text) :
    splitOptions ("--volume".toList :: value :: words) =
      ("--volume".toList :: value :: (splitOptions words).1, (splitOptions words).2) := by
  rw [splitOptions, if_pos (by decide), if_neg (by decide), if_pos rfl]

/-- The options that the script gives are read as such. -/
theorem splitOptions_options (name volume volume' : Text) (words : List Text) :
    splitOptions (options name volume volume' ++ words) =
      (options name volume volume' ++ (splitOptions words).1, (splitOptions words).2) := by
  unfold options
  simp only [List.cons_append, List.nil_append]
  rw [splitOptions_flag (by decide), splitOptions_flag (by decide), splitOptions_flag (flag_name name),
    splitOptions_flag (by decide), splitOptions_volume, splitOptions_volume]

/-- It reads the script as documented. -/
theorem documented_readPodman : Documented readPodman := by
  constructor
  · intro words other
    unfold readPodman
    split
    · rw [if_neg fun same => other (congrArg some same)]
    · rfl
  · intro name volume volume' image command noOption
    refine readPodman_split ((splitOptions_options ..).trans ?_)
    rw [splitOptions_word noOption, List.append_nil]
  · intro name volume volume' word more image command option reads
    have split := splitOptions_options name volume volume' (word :: more)
    change readPodman ("podman".toList :: "run".toList :: (options name volume volume' ++ word :: more)) = _ at reads
    cases behind : (splitOptions (word :: more)).2 with
    | nil =>
      rw [behind] at split
      unfold readPodman at reads
      simp only [if_true, split, reduceCtorEq] at reads
    | cons image' command' =>
      rw [behind] at split
      rw [readPodman_split split] at reads
      obtain ⟨same, -, -⟩ := Action.starts.inj (Option.some.inj reads)
      exact splitOptions_option option more (List.append_right_eq_self.1 same)
  · intro container command noOption
    have split : splitOptions ("-it".toList :: container :: command) = (["-it".toList], container :: command) := by
      rw [splitOptions_flag (by decide), splitOptions_word noOption]
    exact readPodman_split split
  · intro container noOption
    have split : splitOptions ["-t0".toList, container] = (["-t0".toList], [container]) := by
      rw [splitOptions_flag (by decide), splitOptions_word noOption]
    exact readPodman_split split

/-! ## Two jobs of a project -/

/-- A directory in which no pattern matches. -/
def noMatch (word : Text) : List Text := [word]

/-- In an empty directory every pattern stands for itself. -/
theorem pathnames_noMatch : Pathnames noMatch := ⟨fun _ _ => rfl, fun word => List.cons_ne_nil word []⟩

/-- In an empty directory no name is a path. -/
theorem noSuchPath_noMatch : NoSuchPath noMatch := ⟨fun _ => rfl, fun _ => rfl⟩

/-- A job of a project. -/
def jobOf (title : Text) (id : Nat) : Job where
  runnerId := "3".toList
  projectRootNamespace := "group".toList
  projectTitle := title
  commitSha := "9c24f0a1".toList
  jobId := id
  jobImage := "alpine:3.20".toList
  projectDir := ⟨"/builds/group/project".toList, by decide, forall_eq_false (by decide), forall_eq_false (by decide)⟩
  pwd := ⟨"/gitlab_runner".toList, by decide, forall_eq_false (by decide), forall_eq_false (by decide)⟩

/-- **The stages of two jobs address a container of their own exactly if the parts of the
names are characters of names and the images are one word.** -/
theorem addressOwn_iff {podman : List Text → Option Action} {matching : Text → List Text}
    (pathnames : Pathnames matching) (noPath : NoSuchPath matching)
    (documented : Documented podman) (job other : Job) :
    AddressOwn podman matching job other ↔ job.Plain matching ∧ other.Plain matching := by
  constructor
  · rintro ⟨name, name', addresses, addresses', -⟩
    exact ⟨(plain_of_addresses pathnames noPath documented addresses).1,
      (plain_of_addresses pathnames noPath documented addresses').1⟩
  · rintro ⟨plain, plain'⟩
    exact ⟨_, _, addresses_of_plain pathnames noPath documented plain,
      addresses_of_plain pathnames noPath documented plain',
      containerName_ne⟩

/-- Two jobs of a project without a blank in its title. -/
theorem addressOwn_iff_solid :
    AddressOwn readPodman noMatch (jobOf "My_Project".toList 7) (jobOf "My_Project".toList 8) := by
  apply (addressOwn_iff pathnames_noMatch noSuchPath_noMatch documented_readPodman _ _).2
  constructor <;> constructor <;> decide

/-- A space in the title: the options end behind `My`, and the next word is taken for the image. -/
theorem title_splits :
    ¬ AddressOwn readPodman noMatch (jobOf "My Project".toList 7) (jobOf "My Project".toList 8) ∧
    ∀ id ∈ [7, 8], (prepare noMatch (jobOf "My Project".toList id)).filterMap readPodman =
      [.starts ["--detach".toList, "--rm=true".toList, "--name=gitlab-runner--id-3--ns-group--project-My".toList]
        ("Project--commit-9c24f0a1--job-".toList ++ numeral id)
        (((jobOf "My Project".toList id).options []).drop 3 ++
          ["alpine:3.20".toList, "sleep".toList, "infinity".toList])] := by
  constructor
  · rintro ⟨name, name', addresses, -⟩
    have plain := (plain_of_addresses pathnames_noMatch noSuchPath_noMatch documented_readPodman addresses).1
    exact absurd plain.projectTitle (by decide)
  · decide

end GtpLibrary.GitlabRunner
