import GtpLibrary.Kms.Script

/-!
# Messages come back

Only `generate_key` changes a file, and only the one that its `local_key` names. So what `encrypt`
prints is decrypted with the same local key as long as no other key is saved there.
-/

namespace GtpLibrary.Kms.Script

open Lib Lib.Shell Lib.Words Lib.Numerals

/-! ## Reading the arguments -/

/-- Options with their values, and the command behind them. -/
def arguments (options : List (Text × Text)) (command : List Text) : List Text :=
  options.flatMap (fun option => ["--".toList ++ option.1, option.2]) ++ command

/-- The values as they are given, the last one of a key. -/
def given (params : Params) (options : List (Text × Text)) : Params :=
  options.foldl (fun params option => Function.update params option.1 (some option.2)) params

/-- Each option has a key and a value. -/
def Usual (options : List (Text × Text)) : Prop := ∀ option ∈ options, option.1 ≠ [] ∧ ¬ isKey option.2

instance (options : List (Text × Text)) : Decidable (Usual options) :=
  inferInstanceAs (Decidable (∀ option ∈ options, _ ∧ _))

section
variable {params last : Params} {options : List (Text × Text)} {args command : List Text}

theorem given_apply (options : List (Text × Text)) (key : Text) :
    given (fun _ => none) options key = options.reverse.lookup key := by
  induction options using List.reverseRecOn with
  | nil => rfl
  | append_singleton options option ih =>
    rw [given, List.foldl_append, List.reverse_append]
    show Function.update (given _ options) option.1 (some option.2) key = ((option.1, option.2) :: options.reverse).lookup key
    rw [List.lookup_cons, ← ih]
    by_cases same : key = option.1
    · subst same
      simp
    · rw [Function.update_of_ne same, beq_false_of_ne same]

theorem line_ne_nil (t : Text) : line t ≠ [] := List.append_ne_nil_of_right_ne_nil _ (List.cons_ne_nil _ _)

theorem parse_short (short : command.length ≤ 1) (params : Params) : parse params command = ([], some (params, command)) := by
  match command, short with
  | [], _ => rfl
  | [_], _ => rfl

/-- The loop reads the options one by one. -/
theorem parse_arguments (usual : Usual options) (short : command.length ≤ 1) (params : Params) :
    parse params (arguments options command) = ([], some (given params options, command)) := by
  induction options generalizing params with
  | nil => exact parse_short short params
  | cons option options ih =>
    obtain ⟨⟨named, value⟩, later⟩ := List.forall_mem_cons.1 usual
    have key : isKey ("--".toList ++ option.1) := List.prefix_append ..
    have name : ("--".toList ++ option.1).drop 2 = option.1 := rfl
    show parse params (("--".toList ++ option.1) :: option.2 :: arguments options command) = _
    rw [parse, if_pos key, if_pos value, name, if_neg named]
    exact ih later _

/-- **The arguments are read without a word exactly when each option has a key and a value and at
most a command stands behind them.** -/
theorem parse_silent_iff (params last : Params) (args command : List Text) :
    parse params args = ([], some (last, command)) ↔
      ∃ options, Usual options ∧ args = arguments options command ∧ command.length ≤ 1 ∧ last = given params options := by
  constructor
  · intro silent
    fun_induction parse params args with
    | case1 params first second rest key value empty => cases silent
    | case2 params first second rest key value named ih =>
      obtain ⟨options, usual, args, short, values⟩ := ih silent
      obtain ⟨name, rfl⟩ := key
      refine ⟨(name, second) :: options, List.forall_mem_cons.2 ⟨⟨named, value⟩, usual⟩, ?_, short, values⟩
      rw [args]
      rfl
    | case3 params first second rest key value later ih =>
      exact absurd (List.append_eq_nil_iff.1 (Prod.mk.inj silent).1).1 (line_ne_nil _)
    | case4 params first second rest key => cases silent
    | case5 params rest short =>
      cases silent
      refine ⟨[], nofun, rfl, ?_, rfl⟩
      match command, short with
      | [], _ => exact Nat.zero_le 1
      | [_], _ => exact Nat.le_refl 1
      | first :: second :: rest, short => exact absurd rfl (short first second rest)
  · rintro ⟨options, usual, rfl, short, rfl⟩
    exact parse_arguments usual short params

end

/-! ## The files -/

/-- A call that reaches `generate_key` with a local key of this file. -/
def Saves {File : Type} (world : World File) (call : Call) (file : File) : Prop :=
  ∃ lines params path more, parse (fun _ => none) call.arguments = (lines, some (params, "--generate_key".toList :: more)) ∧
    params "local_key".toList = some path ∧ world.file path = file

/-- Calls of the script, and what others write. -/
inductive Event (File : Type) where
  | calls (call : Call)
  | writes (file : File) (content : Option (List Byte))

section
variable {File : Type} [DecidableEq File] {world : World File} {files : File → Option (List Byte)} {params : Params}
  {call : Call} {file : File}

variable (world) in
def after (files : File → Option (List Byte)) : Event File → File → Option (List Byte)
  | .calls call => (kmsCryptor world files call).files
  | .writes file content => Function.update files file content

def Event.Touches (world : World File) (file : File) : Event File → Prop
  | .calls call => Saves world call file
  | .writes other _ => other = file

theorem generateKey_files (away : ∀ path, params "local_key".toList = some path → world.file path ≠ file) :
    (generateKey world files params call).files file = files file := by
  unfold generateKey
  split
  · rfl
  · dsimp only
    split
    · rfl
    · split
      · split
        · rfl
        · rename_i path here
          split
          · exact Function.update_of_ne (away path here).symm _ _
          · rfl
      · rfl

omit [DecidableEq File] in
theorem openssl_files (enc : Option OpensslEnc) : (openssl world call files enc).files = files := by
  unfold openssl
  split
  · rfl
  · split <;> rfl

theorem kmsCryptor_files (saves : ¬ Saves world call file) : (kmsCryptor world files call).files file = files file := by
  unfold kmsCryptor
  split
  · rfl
  · rfl
  · rename_i lines params first more reads
    show (command world files params call first).files file = files file
    unfold command
    split
    · rename_i generates
      exact generateKey_files fun path here same => saves ⟨lines, params, path, more, generates ▸ reads, here, same⟩
    · split
      · exact congrFun (openssl_files _) file
      · split
        · exact congrFun (openssl_files _) file
        · rfl

theorem after_of_not_touches {event : Event File} (away : ¬ event.Touches world file) :
    after world files event file = files file := by
  cases event with
  | calls call => exact kmsCryptor_files away
  | writes other content => exact Function.update_of_ne (Ne.symm away) _ _

/-- What no event touches stays. -/
theorem foldl_after {events : List (Event File)} (away : ∀ event ∈ events, ¬ event.Touches world file) :
    events.foldl (after world) files file = files file := by
  induction events generalizing files with
  | nil => rfl
  | cons event events ih =>
    obtain ⟨first, later⟩ := List.forall_mem_cons.1 away
    rw [List.foldl_cons, ih later, after_of_not_touches first]

/-! ## The commands -/

/-- A call as the usage has it, for a command and a local key. -/
structure Uses (call : Call) (command path : Text) : Prop where
  given : ∃ options, Usual options ∧ call.arguments = arguments options [command] ∧
    options.reverse.lookup "local_key".toList = some path

variable (world files) in
theorem Uses.reads {name path : Text} (uses : Uses call name path) :
    ∃ params, params "local_key".toList = some path ∧
      kmsCryptor world files call = command world files params call name := by
  obtain ⟨options, usual, arguments, here⟩ := uses.given
  refine ⟨Script.given (fun _ => none) options, (given_apply ..).trans here, ?_⟩
  have short : [name].length ≤ 1 := Nat.le_refl 1
  unfold kmsCryptor
  rw [arguments, parse_arguments usual short]
  dsimp only
  rw [ite_self, List.nil_append]

theorem generateKey_ok {path : Text} (here : params "local_key".toList = some path)
    (ok : (generateKey world files params call).ok = true) : ∃ kmsKeyId rand, call.rand = some rand ∧
      (generateKey world files params call).files =
        Function.update files (world.file path) (some (Kms.generateKey world.aws kmsKeyId call.nonce rand)) := by
  unfold generateKey at ok ⊢
  cases drawn : call.rand with
  | none =>
    rw [drawn] at ok
    cases ok
  | some rand =>
    simp only [drawn] at ok ⊢
    cases id : params "kms_key_id".toList with
    | none =>
      rw [id] at ok
      cases ok
    | some kmsKeyId =>
      simp only [id, here] at ok ⊢
      split at ok
      · rename_i reached
        rw [if_pos reached]
        split at ok
        · rename_i writable
          rw [if_pos writable]
          exact ⟨utf8 kmsKeyId, rand, rfl, rfl⟩
        · cases ok
      · cases ok

/-- A key that was saved. -/
theorem Uses.generateKey {path : Text} (uses : Uses call "--generate_key".toList path)
    (ok : (kmsCryptor world files call).ok = true) : ∃ kmsKeyId rand, call.rand = some rand ∧
      (kmsCryptor world files call).files (world.file path) =
        some (Kms.generateKey world.aws kmsKeyId call.nonce rand) := by
  obtain ⟨params, here, is⟩ := uses.reads world files
  rw [is, command, if_pos rfl] at ok ⊢
  obtain ⟨kmsKeyId, rand, drawn, saved⟩ := generateKey_ok here ok
  refine ⟨kmsKeyId, rand, drawn, ?_⟩
  rw [saved, Function.update_self]

/-- No character of the path separates words or makes a pattern. -/
def Whole (path : Text) : Prop := ∀ c ∈ path, blank c = false ∧ special c = false

instance (path : Text) : Decidable (Whole path) := List.decidableBAll _ path

omit [DecidableEq File] in
theorem blob_whole (pathnames : Pathnames world.matching) {path : Text} (whole : Whole path) :
    blob world path = some path := by
  have text : [Piece.kept "fileb://".toList, .value path].flatMap Piece.text = "fileb://".toList ++ path := by
    simp [Piece.text]
  have one : (Word.joined [.kept "fileb://".toList, .value path]).expand world.matching = ["fileb://".toList ++ path] := by
    rw [← text]
    apply pathnames.expand_plain
    · intro piece member t same c inside
      subst same
      simp only [List.mem_cons, List.not_mem_nil, or_false, reduceCtorEq, Piece.value.injEq, false_or] at member
      subst member
      exact (whole c inside).1
    · rw [text]
      intro c member
      rcases List.mem_append.1 member with front | inside
      · exact forall_eq_false (show "fileb://".toList.any special = false by decide) c front
      · exact (whole c inside).2
    · rw [text]
      exact List.append_ne_nil_of_left_ne_nil (by decide) path
  unfold blob
  rw [one]
  exact if_pos (List.prefix_append _ _)

omit [DecidableEq File] in
/-- The key that is read is the one in the file. -/
theorem localKey_whole (pathnames : Pathnames world.matching) {path : Text} (whole : Whole path) (reached : call.reached = true)
    (here : params "local_key".toList = some path) : localKey world files params call = files (world.file path) := by
  rw [localKey, here, Option.bind_some, blob_whole pathnames whole, Option.bind_some, if_pos reached]

variable {kmsKeyId rand : List Byte} {nonce : Nat} {path : Text}

theorem Uses.encrypt (uses : Uses call "--encrypt".toList path) (pathnames : Pathnames world.matching) (whole : Whole path)
    (reached : call.reached = true)
    (saved : files (world.file path) = some (Kms.generateKey world.aws kmsKeyId nonce rand)) :
    kmsCryptor world files call = ⟨files, world.enc (kept rand) call.salt call.stdin, true, true⟩ := by
  obtain ⟨params, here, is⟩ := uses.reads world files
  rw [is, command, if_neg (by decide), if_pos rfl, Script.encrypt, localKey_whole pathnames whole reached here, saved,
    Option.bind_some, encrypt_generateKey]
  rfl

theorem Uses.decrypt (uses : Uses call "--decrypt".toList path) (pathnames : Pathnames world.matching) (whole : Whole path)
    (reached : call.reached = true)
    (saved : files (world.file path) = some (Kms.generateKey world.aws kmsKeyId nonce rand)) :
    kmsCryptor world files call =
      ⟨files, (world.dec (kept rand) call.stdin).1, (world.dec (kept rand) call.stdin).2, false⟩ := by
  obtain ⟨params, here, is⟩ := uses.reads world files
  rw [is, command, if_neg (by decide), if_neg (by decide), if_pos rfl, Script.decrypt,
    localKey_whole pathnames whole reached here, saved, Option.bind_some, decrypt_generateKey]
  rfl

/-- **What arrives is the encrypted message alone exactly when each argument in front of the command is a key or its
value, or the standard output is a regular file and the raw key was to be had.** Otherwise warnings stand in front
of it. -/
theorem encrypt_clean_iff {params : Params} {lines : List Byte} {more : List Text}
    (reads : parse (fun _ => none) call.arguments = (lines, some (params, "--encrypt".toList :: more))) :
    (kmsCryptor world files call).stdout = (Script.encrypt world files params call).stdout ↔
      (∃ options, Usual options ∧ call.arguments = arguments options ["--encrypt".toList]) ∨
        (call.toFile ∧ (Script.encrypt world files params call).reopened) := by
  have printed : (kmsCryptor world files call).stdout =
      (if call.toFile ∧ (Script.encrypt world files params call).reopened then [] else lines) ++
        (Script.encrypt world files params call).stdout := by
    have encrypts : command world files params call "--encrypt".toList = Script.encrypt world files params call := by
      rw [command, if_neg (by decide), if_pos rfl]
    unfold kmsCryptor
    rw [reads]
    dsimp only
    rw [encrypts]
  have silent : lines = [] ↔ ∃ options, Usual options ∧ call.arguments = arguments options ["--encrypt".toList] := by
    constructor
    · rintro rfl
      obtain ⟨options, usual, args, short, -⟩ := (parse_silent_iff ..).1 reads
      refine ⟨options, usual, ?_⟩
      rwa [List.length_eq_zero_iff.1 (Nat.le_zero.1 (Nat.succ_le_succ_iff.1 short))] at args
    · rintro ⟨options, usual, args⟩
      have short : ["--encrypt".toList].length ≤ 1 := Nat.le_refl 1
      rw [args, parse_arguments usual short] at reads
      exact (Prod.mk.inj reads).1.symm
  rw [printed, List.append_left_eq_self, ← silent]
  split_ifs with emptied
  · exact iff_of_true rfl (.inr emptied)
  · exact (or_iff_left emptied).symm

/-- **Behind a key that was saved, messages come back**, until something else is written to the
file of the local key. -/
theorem decrypts_encrypted (pathnames : Pathnames world.matching) {generate encrypt decrypt : Call} {path path' : Text}
    (generates : Uses generate "--generate_key".toList path) (ok : (kmsCryptor world files generate).ok = true)
    (encrypts : Uses encrypt "--encrypt".toList path) (decrypts : Uses decrypt "--decrypt".toList path')
    (whole : Whole path) (whole' : Whole path') (same : world.file path' = world.file path)
    (reached : encrypt.reached = true) (reached' : decrypt.reached = true) {events more : List (Event File)}
    (away : ∀ event ∈ events ++ more, ¬ event.Touches world (world.file path)) :
    let before := events.foldl (after world) (kmsCryptor world files generate).files
    let encrypted := kmsCryptor world before encrypt
    let behind := more.foldl (after world) encrypted.files
    decrypt.stdin = encrypted.stdout →
      encrypted.ok = true ∧ kmsCryptor world behind decrypt = ⟨behind, encrypt.stdin, true, false⟩ := by
  obtain ⟨kmsKeyId, rand, -, saved⟩ := generates.generateKey ok
  intro before encrypted behind input
  have stays := (foldl_after fun event member => away event (List.mem_append_left _ member)).trans saved
  have here : encrypted = _ := encrypts.encrypt pathnames whole reached stays
  have there : behind (world.file path') = some (Kms.generateKey world.aws kmsKeyId generate.nonce rand) := by
    rw [same]
    refine (foldl_after fun event member => away event (List.mem_append_right _ member)).trans ?_
    rw [here]
    exact stays
  refine ⟨congrArg Result.ok here, (decrypts.decrypt pathnames whole' reached' there).trans ?_⟩
  rw [input, here, world.inverts]

end

/-! ## A message -/

/-- A passphrase in front of the message. -/
def plainWorld : World Text where
  aws := plainService
  enc passphrase _ message := passphrase ++ message
  dec passphrase input := (input.drop passphrase.length, true)
  inverts passphrase _ message := by rw [List.drop_left]
  matching word := [word]
  file path := path
  test _ := true
  name := "kms_cryptor.sh".toList

def callOf (command : String) (stdin : List Byte) : Call where
  arguments := arguments [("kms_key_id".toList, "7".toList), ("local_key".toList, "one.key".toList)] [command.toList]
  stdin := stdin
  toFile := false
  rand := some [5, 6]
  nonce := 0
  salt := 0
  reached := true
  writable := true

theorem uses_callOf (command : String) (stdin : List Byte) :
    Uses (callOf command stdin) command.toList "one.key".toList :=
  ⟨_, by decide, rfl, rfl⟩

/-- A key without a value: the warning is printed, too. -/
theorem encrypt_clean_iff_verbose :
    let call := { callOf "--encrypt" (text "SECRET") with
      arguments := ["--verbose".toList, "--local_key".toList, "one.key".toList, "--encrypt".toList] }
    (kmsCryptor plainWorld (fun _ => none) call).stdout ≠
      (Script.encrypt plainWorld (fun _ => none) (Function.update (fun _ => none) "local_key".toList (some "one.key".toList))
        call).stdout := by
  intro call same
  have reads : parse (fun _ => none) call.arguments = (line "Warning: Missing value for --verbose".toList,
      some (Function.update (fun _ => none) "local_key".toList (some "one.key".toList), ["--encrypt".toList])) := rfl
  obtain ⟨options, usual, arguments⟩ := ((encrypt_clean_iff reads).1 same).resolve_right fun file => nomatch file.1
  have silent : parse (fun _ => none) call.arguments = _ :=
    (parse_silent_iff _ _ _ _).2 ⟨options, usual, arguments, Nat.le_refl 1, rfl⟩
  exact line_ne_nil _ (Prod.mk.inj (reads.symm.trans silent)).1

/-- Another file is written between the calls. -/
theorem decrypts_encrypted_secret :
    let before := [Event.writes "two.key".toList none].foldl (after plainWorld)
      (kmsCryptor plainWorld (fun _ => none) (callOf "--generate_key" [])).files
    let encrypted := kmsCryptor plainWorld before (callOf "--encrypt" (text "SECRET"))
    encrypted.ok = true ∧
      (kmsCryptor plainWorld encrypted.files (callOf "--decrypt" encrypted.stdout)).stdout = text "SECRET" := by
  have pathnames : Pathnames plainWorld.matching := ⟨fun _ _ => rfl, fun word => List.cons_ne_nil word []⟩
  have ok : (kmsCryptor plainWorld (fun _ => none) (callOf "--generate_key" [])).ok = true := by decide
  have away : ∀ event ∈ [Event.writes "two.key".toList none] ++ [],
      ¬ event.Touches plainWorld (plainWorld.file "one.key".toList) := by
    intro event member
    rw [List.append_nil, List.mem_singleton] at member
    rw [member]
    show "two.key".toList ≠ "one.key".toList
    decide
  intro before encrypted
  have back := decrypts_encrypted pathnames (uses_callOf "--generate_key" []) ok (uses_callOf "--encrypt" (text "SECRET"))
    (uses_callOf "--decrypt" encrypted.stdout) (by decide) (by decide) rfl rfl rfl away rfl
  exact ⟨back.1, congrArg Result.stdout back.2⟩

end GtpLibrary.Kms.Script
