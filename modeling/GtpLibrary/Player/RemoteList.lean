import Mathlib.Data.List.DropRight
import Mathlib.Data.List.TakeWhile
import GtpLibrary.Player.PyText

/-!
# `list_remote_mp3s`

The names come as the lines of an output, which passes two decodings: the text mode of
`subprocess` turns every carriage return into a newline, and `splitlines` cuts at more
characters than the newline. `ssh` is a parameter; `Lists` says what the remote command prints.
-/

namespace GtpLibrary.Player

/-! ## Lines of a Python text -/

/-- What the text mode reads for the decoded output. -/
def universalNewlines : Str → Str
  | '\r' :: '\n' :: rest => '\n' :: universalNewlines rest
  | c :: rest => (if c = '\r' then '\n' else c) :: universalNewlines rest
  | [] => []

/-- The characters that end a line for `splitlines`. -/
def isLineBreak (c : Char) : Bool :=
  [0x0a, 0x0b, 0x0c, 0x0d, 0x1c, 0x1d, 0x1e, 0x85, 0x2028, 0x2029].contains c.toNat

/-- `s.splitlines()`. -/
def splitlines : Str → List Str
  | '\r' :: '\n' :: rest => [] :: splitlines rest
  | c :: rest =>
    if isLineBreak c then [] :: splitlines rest
    else match splitlines rest with
      | [] => [[c]]
      | line :: lines => (c :: line) :: lines
  | [] => []

/-! ## The command -/

/-- The characters of which `shlex.quote` leaves a text as it is. -/
def isSafe (c : Char) : Bool := c.isAlphanum || "_@%+=:,.-/".toList.contains c

def shlexQuote (s : Str) : Str :=
  if s = [] then "''".toList
  else if s.all isSafe then s
  else '\'' :: (s.flatMap fun c => if c = '\'' then "'\"'\"'".toList else [c]) ++ ['\'']

def remoteCmd (remotePath : Str) : Str :=
  "find ".toList ++ shlexQuote remotePath ++ " -type f -iname '*.mp3' -printf '%P\\n' | sort".toList

def sshCmd (host remotePath : Str) : List Str :=
  ["ssh".toList, "-o".toList, "BatchMode=yes".toList, "-o".toList, "ConnectTimeout=15".toList, host, remoteCmd remotePath]

/-- What `subprocess.run` captures, before the text mode. -/
structure CompletedProcess where
  returncode : Int
  stdout : Str
  stderr : Str

/-- The text of the `SystemExit`; `repr` is that of the host, `str` that of the number. -/
def sshFailed (repr : Str → Str) (str : Int → Str) (host : Str) (result : CompletedProcess) : Str :=
  let stderr := universalNewlines result.stderr
  let stdout := universalNewlines result.stdout
  "ssh failed (".toList ++ str result.returncode ++ ") for host ".toList ++ repr host ++
    " (check ~/.ssh/config / keys): ".toList ++ strip (if stderr = [] then stdout else stderr)

section
variable (run : List Str → CompletedProcess) (repr : Str → Str) (str : Int → Str)

def listRemoteMp3s (host remotePath : Str) : Except Str (List Str) :=
  let result := run (sshCmd host remotePath)
  if result.returncode ≠ 0 then .error (sshFailed repr str host result)
  else .ok ((splitlines (universalNewlines result.stdout)).filter fun line => strip line ≠ [])

end

/-! ## What the names are -/

/-- A name that the `find` can print: it ends in `.mp3`, whatever the case. -/
structure RemoteName (name : Str) : Prop where
  mp3 : ∃ front tail, name = front ++ tail ∧ tail.map Char.toLower = ".mp3".toList
  noNewline : '\n' ∉ name

/-- The command succeeds and prints the names in some order, each on a line. -/
def Lists (run : List Str → CompletedProcess) (host remotePath : Str) (names : List Str) : Prop :=
  ∃ sorted : List Str, sorted.Perm names ∧
    run (sshCmd host remotePath) = ⟨0, sorted.flatMap (· ++ ['\n']), (run (sshCmd host remotePath)).stderr⟩

section
variable {name : Str} {names : List Str}

/-- No line holds a character that ends one. -/
theorem not_isLineBreak_of_mem_splitlines {t line : Str} (member : line ∈ splitlines t) {c : Char} (inside : c ∈ line) :
    isLineBreak c = false := by
  induction t using splitlines.induct generalizing line with
  | case1 rest ih =>
    rw [splitlines] at member
    rcases List.mem_cons.1 member with rfl | later
    · cases inside
    · exact ih later inside
  | case2 d rest notCrlf breaks ih =>
    rw [splitlines.eq_2 _ _ notCrlf, if_pos breaks] at member
    rcases List.mem_cons.1 member with rfl | later
    · cases inside
    · exact ih later inside
  | case3 d rest notCrlf keeps none ih =>
    rw [splitlines.eq_2 _ _ notCrlf, if_neg keeps, none] at member
    rw [List.mem_singleton.1 member, List.mem_singleton] at inside
    rw [inside]
    exact Bool.eq_false_iff.2 keeps
  | case4 d rest notCrlf keeps first lines split ih =>
    rw [splitlines.eq_2 _ _ notCrlf, if_neg keeps, split] at member
    rw [split] at ih
    rcases List.mem_cons.1 member with rfl | later
    · rcases List.mem_cons.1 inside with rfl | behind
      · exact Bool.eq_false_iff.2 keeps
      · exact ih List.mem_cons_self behind
    · exact ih (List.mem_cons_of_mem _ later) inside
  | case5 => cases member

/-- A line without such a character is read back. -/
theorem splitlines_line (clean : ∀ c ∈ name, isLineBreak c = false) (rest : Str) :
    splitlines (name ++ '\n' :: rest) = name :: splitlines rest := by
  induction name with
  | nil => rfl
  | cons c name ih =>
    obtain ⟨here, later⟩ := List.forall_mem_cons.1 clean
    have notReturn : c ≠ '\r' := by
      rintro rfl
      cases here
    rw [List.cons_append, splitlines.eq_2 c _ (fun _ same => absurd same notReturn), ih later, here]
    rfl

theorem universalNewlines_of_no_return {t : Str} (free : '\r' ∉ t) : universalNewlines t = t := by
  induction t with
  | nil => rfl
  | cons c t ih =>
    rw [List.mem_cons, not_or] at free
    rw [universalNewlines.eq_2 c _ (fun _ same => absurd same.symm free.1), ih free.2, if_neg (Ne.symm free.1)]

/-- A text that is all white space is blank, and no other one. -/
theorem isSpace_of_strip {t : Str} (blank : strip t = []) : ∀ c ∈ t, isSpace c = true := by
  have behind : ∀ c ∈ t.dropWhile isSpace, isSpace c = true := by
    have none : (t.dropWhile isSpace).reverse.dropWhile isSpace = [] := List.reverse_eq_nil_iff.1 blank
    intro c member
    exact List.dropWhile_eq_nil_iff.1 none c (List.mem_reverse.2 member)
  have empty : t.dropWhile isSpace = [] := by
    rw [← List.dropWhile_idempotent, List.dropWhile_eq_nil_iff]
    exact behind
  exact List.dropWhile_eq_nil_iff.1 empty

theorem toLower_of_isSpace {c : Char} (space : isSpace c = true) : c.toLower = c := by
  unfold Char.toLower
  apply dif_neg
  rintro ⟨low, high⟩
  have code : 65 ≤ c.toNat ∧ c.toNat ≤ 90 := ⟨low, high⟩
  simp only [isSpace, List.contains_eq_mem, List.mem_cons, List.not_mem_nil, or_false, Bool.or_eq_true, Bool.and_eq_true,
    decide_eq_true_eq] at space
  omega

/-- No name is dropped as blank: its dot is no white space. -/
theorem RemoteName.strip_ne_nil (remote : RemoteName name) : strip name ≠ [] := by
  intro blank
  obtain ⟨front, tail, rfl, lower⟩ := remote.mp3
  have space : ∀ c ∈ tail, isSpace c = true := fun c member => isSpace_of_strip blank c (List.mem_append_right _ member)
  have same : tail.map Char.toLower = tail := by
    rw [List.map_congr_left fun c member => toLower_of_isSpace (space c member), List.map_id']
  rw [same] at lower
  have dot := space '.' (lower ▸ List.mem_cons_self)
  exact absurd dot (by decide)

theorem splitlines_flatMap (clean : ∀ name ∈ names, ∀ c ∈ name, isLineBreak c = false) :
    splitlines (names.flatMap (· ++ ['\n'])) = names := by
  induction names with
  | nil => rfl
  | cons name names ih =>
    obtain ⟨here, later⟩ := List.forall_mem_cons.1 clean
    rw [List.flatMap_cons, List.append_assoc, List.singleton_append, splitlines_line here, ih later]

end

section
variable {run : List Str → CompletedProcess} {repr : Str → Str} {str : Int → Str} {host remotePath : Str} {names : List Str}

/-- **The listing gives the names exactly if** none of them holds a character that ends a line. -/
theorem listRemoteMp3s_iff (lists : Lists run host remotePath names) (remote : ∀ name ∈ names, RemoteName name) :
    (∃ listed, listRemoteMp3s run repr str host remotePath = .ok listed ∧ listed.Perm names) ↔
      ∀ name ∈ names, ∀ c ∈ name, isLineBreak c = false := by
  obtain ⟨sorted, order, ran⟩ := lists
  have result : listRemoteMp3s run repr str host remotePath =
      .ok ((splitlines (universalNewlines (sorted.flatMap (· ++ ['\n'])))).filter fun line => strip line ≠ []) := by
    unfold listRemoteMp3s
    rw [ran]
    exact if_neg fun other => other rfl
  rw [result]
  constructor
  · rintro ⟨listed, same, perm⟩ name member c inside
    cases same
    exact not_isLineBreak_of_mem_splitlines (List.mem_of_mem_filter (perm.mem_iff.2 member)) inside
  · intro clean
    have cleanSorted : ∀ name ∈ sorted, ∀ c ∈ name, isLineBreak c = false := fun name member =>
      clean name (order.mem_iff.1 member)
    have noReturn : '\r' ∉ sorted.flatMap (· ++ ['\n']) := by
      intro member
      obtain ⟨name, inside, here⟩ := List.mem_flatMap.1 member
      rcases List.mem_append.1 here with within | last
      · exact absurd (cleanSorted name inside _ within) (by decide)
      · exact absurd (List.mem_singleton.1 last) (by decide)
    have kept : (sorted.filter fun line => strip line ≠ []) = sorted := by
      apply List.filter_eq_self.2
      intro name member
      exact decide_eq_true (remote name (order.mem_iff.1 member)).strip_ne_nil
    rw [universalNewlines_of_no_return noReturn, splitlines_flatMap cleanSorted, kept]
    exact ⟨sorted, rfl, order⟩

end

/-- A server that holds the names and sorts them by the reverse of their order here. -/
def serving (names : List Str) (_ : List Str) : CompletedProcess := ⟨0, names.reverse.flatMap (· ++ ['\n']), []⟩

theorem lists_serving (names : List Str) (host remotePath : Str) : Lists (serving names) host remotePath names :=
  ⟨names.reverse, names.reverse_perm, rfl⟩

theorem remoteName_append (front : Str) {tail : Str} (lower : tail.map Char.toLower = ".mp3".toList)
    (noNewline : '\n' ∉ front ++ tail) : RemoteName (front ++ tail) := ⟨⟨front, tail, rfl, lower⟩, noNewline⟩

theorem listRemoteMp3s_iff_two : ∃ listed,
    listRemoteMp3s (serving ["b side/Intro.MP3".toList, "Sa scapam.mp3".toList]) id (fun _ => []) "nas".toList
        "/m/".toList =
        .ok listed ∧
      listed.Perm ["b side/Intro.MP3".toList, "Sa scapam.mp3".toList] := by
  apply (listRemoteMp3s_iff (lists_serving _ _ _) ?_).2
  · have clean : ∀ name ∈ ["b side/Intro.MP3".toList, "Sa scapam.mp3".toList], name.any isLineBreak = false := by decide
    exact fun name member c inside => Bool.eq_false_iff.2 (List.any_eq_false.1 (clean name member) c inside)
  · simp only [List.forall_mem_cons]
    exact ⟨remoteName_append "b side/Intro".toList (by decide) (by decide),
      remoteName_append "Sa scapam".toList (by decide) (by decide), fun _ none => by cases none⟩

def cutName : Str := "Side A\u2028Side B.mp3".toList

/-- A name with a line separator comes back as two names. -/
theorem name_cut : RemoteName cutName ∧ Lists (serving [cutName]) "nas".toList "/m/".toList [cutName] ∧
    ¬ ∃ listed, listRemoteMp3s (serving [cutName]) id (fun _ => []) "nas".toList "/m/".toList = .ok listed ∧
      listed.Perm [cutName] := by
  have two : listRemoteMp3s (serving [cutName]) id (fun _ => []) "nas".toList "/m/".toList =
      .ok ["Side A".toList, "Side B.mp3".toList] := rfl
  refine ⟨remoteName_append "Side A\u2028Side B".toList (by decide) (by decide), lists_serving .., ?_⟩
  rintro ⟨listed, same, perm⟩
  rw [two] at same
  cases same
  exact absurd perm.length_eq (by decide)

end GtpLibrary.Player
