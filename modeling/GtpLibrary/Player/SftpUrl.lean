import GtpLibrary.Player.KeptPath

/-!
# `parse_sftp_url`

The function asks the parts that `urlparse` reads, which are those of the text only where the
text has nothing that `urlparse` takes out, cuts off or spells its own way. What is lost of a
path does not count in the answer only where it stands in the name of a track
(`keepsFolder_iff`). `meets_iff` says for every text when the answer is that of the documented
form `sftp://HOST/PATH`.
-/

namespace GtpLibrary.Player

/-- What `parse_sftp_url` raises. -/
inductive Raised
  | systemExit (message : Str)
  | valueError
  deriving DecidableEq

section
variable (lib : Library)

/-- `parsed.username or parsed.password is not None`. -/
def ParseResult.userGiven (parsed : ParseResult) : Bool :=
  parsed.username.any (fun user => user ≠ []) || parsed.password.isSome

/-- `path.rsplit("/", 1)[0]`. -/
def parent (path : Str) : Str :=
  if '/' ∈ path then path.take (path.length - (splitLast '/' path).length - 1) else path

/-- The folder of a decoded path. -/
def folder (path : Str) : Str :=
  if path.getLast? = some '/' then path
  else if ".mp3".toList.isSuffixOf (lib.lower path) then parent path ++ ['/']
  else path ++ ['/']

/-- `parsed.path or "/"`. -/
def ParseResult.pathOrRoot (parsed : ParseResult) : Str := if parsed.path = [] then ['/'] else parsed.path

/-- `parse_sftp_url`. -/
def parseSftpUrl (url : Str) : Except Raised (Str × Str × Str) :=
  match urlparse lib url with
  | none => .error .valueError
  | some parsed =>
    if parsed.scheme ≠ "sftp".toList then .error (.systemExit ("Expected sftp:// URL, got: ".toList ++ url))
    else match (parsed.hostname lib).filter (· ≠ []) with
      | none => .error (.systemExit ("Missing host in URL: ".toList ++ url))
      | some host =>
        if parsed.userGiven then .error (.systemExit userMessage)
        else match parsed.port with
          | none => .error .valueError
          | some (some _) => .error (.systemExit userMessage)
          | some none =>
            let path := folder lib (unquote parsed.pathOrRoot)
            .ok (host, path, "sftp://".toList ++ host ++ path)
where
  userMessage : Str :=
    "URL must be sftp://HOST/path (no user, password, or port). Put those in ~/.ssh/config for HOST.".toList

/-! ## The documented form -/

/-- `sftp://HOST/PATH`. -/
def sftpUrl (host path : Str) : Str := "sftp://".toList ++ host ++ '/' :: path

/-- A host alone: nothing in it delimits another part of a URL or is no character of a URL. -/
structure IsHost (host : Str) : Prop where
  nonempty : host ≠ []
  free : ∀ c ∈ host, c ∉ "/?#@:[]\t\r\n".toList

/-- A decoded path ends in `.mp3`, in any letter case. -/
def isTrack (path : Str) : Bool := ".mp3".toList.isSuffixOf (path.map Char.toLower)

/-- The folder that the documentation names for a decoded path. -/
def documentedFolder (path : Str) : Str :=
  if path.getLast? = some '/' then path
  else if isTrack path then parent path ++ ['/']
  else path ++ ['/']

/-- The answer is that of the documentation. -/
def Meets (url : Str) : Prop :=
  match parseSftpUrl lib url with
  | .ok (host, path, _) =>
    ∃ rest, IsHost host ∧ url = sftpUrl host rest ∧ path = documentedFolder (unquote ('/' :: rest))
  | .error (.systemExit _) => ¬ ∃ host rest, IsHost host ∧ url = sftpUrl host rest
  | .error .valueError => False

/-! ## When it is -/

/-- `urlparse` sees another scheme, no host, a user, a password or the number of a port. -/
def ParseResult.Rejected (parsed : ParseResult) : Prop :=
  parsed.scheme ≠ "sftp".toList ∨ (parsed.hostname lib).filter (· ≠ []) = none ∨ parsed.userGiven = true ∨
    ∃ n, parsed.port = some (some n)

/-- The host as `urlparse` spells it. -/
def lowered (host : Str) : Str := lib.lower (before '%' host) ++ host.dropWhile (· ≠ '%')

/-- `urlparse` leaves the path as it is; or the path is a track, and what is left of it names the
folder of the track, or another track in it. -/
def KeepsFolder (rest : Str) : Prop :=
  Untouched rest ∨
    isTrack (unquote ('/' :: rest)) = true ∧
      documentedFolder (unquote (keptPath rest)) = parent (unquote ('/' :: rest)) ++ ['/']

/-- The documented form, of which `urlparse` changes nothing that counts. -/
def PlainUrl (url : Str) : Prop :=
  ∃ host rest, url = sftpUrl host rest ∧ IsHost host ∧ netlocFits lib host = true ∧ lowered lib host = host ∧
    KeepsFolder rest

/-- What `str.lower` does: no character is lost, and only the letters of `.mp3` give these. -/
structure Library.Lowers : Prop where
  nonempty : ∀ s, s ≠ [] → lib.lower s ≠ []
  mp3 : ∀ s, ".mp3".toList.isSuffixOf (lib.lower s) = ".mp3".toList.isSuffixOf (s.map Char.toLower)

end

section
variable {lib : Library} {host rest url : Str} {parsed : ParseResult}

/-! ## The documented form -/

theorem IsHost.not_mem {c : Char} (isHost : IsHost host) (other : c ∈ "/?#@:[]\t\r\n".toList) : c ∉ host :=
  fun member => isHost.free c member other

/-- The characters of a host, checked one after the other. -/
theorem IsHost.of_all (nonempty : host ≠ [])
    (free : (host.all fun c => !("/?#@:[]\t\r\n".toList.contains c)) = true) : IsHost host := by
  refine ⟨nonempty, fun c member => ?_⟩
  have checked := List.all_eq_true.1 free c member
  rw [Bool.not_eq_true', ← Bool.not_eq_true, List.contains_iff_mem] at checked
  exact checked

theorem IsHost.filter_unsafe (isHost : IsHost host) : host.filter (fun c => !isUnsafe c) = host := by
  apply List.filter_eq_self.2
  intro c member
  simp only [isUnsafe, Bool.not_eq_true', Bool.or_eq_false_iff, decide_eq_false_iff_not]
  refine ⟨⟨?_, ?_⟩, ?_⟩
  · rintro rfl
    exact isHost.free '\t' member (by decide)
  · rintro rfl
    exact isHost.free '\r' member (by decide)
  · rintro rfl
    exact isHost.free '\n' member (by decide)

theorem dropWhile_sftpUrl (host rest : Str) :
    (sftpUrl host rest).dropWhile (fun c => c.toNat ≤ 0x20) = sftpUrl host rest := by
  have first : sftpUrl host rest = 's' :: ("ftp://".toList ++ host ++ '/' :: rest) := rfl
  rw [first, List.dropWhile_cons_of_neg (by decide)]

theorem cleaned_sftpUrl (isHost : IsHost host) (rest : Str) : cleaned (sftpUrl host rest) =
    "sftp://".toList ++ (host ++ ('/' :: rest).filter fun c => !isUnsafe c) := by
  have scheme : "sftp://".toList.filter (fun c => !isUnsafe c) = "sftp://".toList := by decide
  have parts : ∀ front : Str, (front ++ host ++ '/' :: rest).filter (fun c => !isUnsafe c) =
      front.filter (fun c => !isUnsafe c) ++ (host ++ ('/' :: rest).filter fun c => !isUnsafe c) := by
    intro front
    rw [List.append_assoc, List.filter_append, List.filter_append, isHost.filter_unsafe]
  have joined := parts "sftp://".toList
  rw [scheme] at joined
  unfold cleaned
  rw [dropWhile_sftpUrl]
  exact joined

theorem splitScheme_sftp (t : Str) : splitScheme ("sftp://".toList ++ t) = ("sftp".toList, "//".toList ++ t) := by
  rfl

theorem splitNetloc_host (isHost : IsHost host) (t : Str) :
    splitNetloc ("//".toList ++ (host ++ '/' :: t)) = (host, '/' :: t) := by
  have inside : ∀ c ∈ host, (!isDelimiter c) = true := by
    intro c member
    simp only [isDelimiter, Bool.not_eq_true', Bool.or_eq_false_iff, decide_eq_false_iff_not]
    refine ⟨⟨?_, ?_⟩, ?_⟩
    · rintro rfl
      exact isHost.free '/' member (by decide)
    · rintro rfl
      exact isHost.free '?' member (by decide)
    · rintro rfl
      exact isHost.free '#' member (by decide)
  have slashes : splitNetloc ("//".toList ++ (host ++ '/' :: t)) =
      ((host ++ '/' :: t).takeWhile fun c => !isDelimiter c, (host ++ '/' :: t).dropWhile fun c => !isDelimiter c) := rfl
  have stop : (!isDelimiter '/') = false := by decide
  rw [slashes, List.takeWhile_append_of_pos inside, List.dropWhile_append_of_pos inside,
    List.takeWhile_cons_of_neg (by rw [stop]; exact Bool.false_ne_true),
    List.dropWhile_cons_of_neg (by rw [stop]; exact Bool.false_ne_true), List.append_nil]

theorem urlparse_sftpUrl (isHost : IsHost host) (rest : Str) : urlparse lib (sftpUrl host rest) =
    if netlocFits lib host then some ⟨"sftp".toList, host, keptPath rest⟩ else none := by
  have brackets : bracketsFit lib host = true := by
    have opening : '[' ∉ host := isHost.not_mem (by decide)
    have closing : ']' ∉ host := isHost.not_mem (by decide)
    unfold bracketsFit
    rw [if_neg fun both => opening both.1]
    simp [opening, closing]
  have path : ('/' :: rest).filter (fun c => !isUnsafe c) = '/' :: rest.filter fun c => !isUnsafe c := rfl
  have params : usesParams.contains "sftp".toList = true := by decide
  unfold urlparse
  rw [cleaned_sftpUrl isHost, splitScheme_sftp, path]
  dsimp only
  rw [splitNetloc_host isHost, brackets, if_pos params]
  simp only [true_and, keptPath, path]

/-! ## The guards -/

variable (lib) in
/-- The parts of a documented URL. -/
theorem parts_of_host (isHost : IsHost host) (path : Str) :
    (⟨"sftp".toList, host, path⟩ : ParseResult).userGiven = false ∧
      (⟨"sftp".toList, host, path⟩ : ParseResult).port = some none ∧
      (⟨"sftp".toList, host, path⟩ : ParseResult).hostname lib = some (lowered lib host) := by
  have noUser : '@' ∉ host := isHost.not_mem (by decide)
  have noBracket : '[' ∉ host := isHost.not_mem (by decide)
  have noPort : ':' ∉ host := isHost.not_mem (by decide)
  have userinfo : (⟨"sftp".toList, host, path⟩ : ParseResult).userinfo = none := if_neg noUser
  have hostinfo : (⟨"sftp".toList, host, path⟩ : ParseResult).hostinfo = (host, []) := by
    unfold ParseResult.hostinfo
    dsimp only
    rw [splitLast_of_not_mem noUser, if_neg noBracket, (partition_of_not_mem noPort).1, (partition_of_not_mem noPort).2]
  refine ⟨?_, ?_, ?_⟩
  · rw [ParseResult.userGiven, ParseResult.username, ParseResult.password, userinfo]
    rfl
  · rw [ParseResult.port, hostinfo]
    rfl
  · rw [ParseResult.hostname, hostinfo]
    exact if_neg isHost.nonempty

/-- The host of a documented URL is not lost. -/
theorem lowered_ne_nil (lowers : lib.Lowers) (nonempty : host ≠ []) : lowered lib host ≠ [] := by
  intro none
  obtain ⟨front, back⟩ := List.append_eq_nil_iff.1 none
  have free : before '%' host = [] := by
    by_contra some
    exact lowers.nonempty _ some front
  have whole : before '%' host ++ host.dropWhile (· ≠ '%') = host := List.takeWhile_append_dropWhile
  rw [free, back] at whole
  exact nonempty whole.symm

theorem hostname_of_host (lowers : lib.Lowers) (isHost : IsHost host) (path : Str) :
    ((⟨"sftp".toList, host, path⟩ : ParseResult).hostname lib).filter (· ≠ []) = some (lowered lib host) := by
  rw [(parts_of_host lib isHost path).2.2, Option.filter_some,
    if_pos (decide_eq_true (lowered_ne_nil lowers isHost.nonempty))]

theorem not_rejected (lowers : lib.Lowers) (isHost : IsHost host) (path : Str) :
    ¬ (⟨"sftp".toList, host, path⟩ : ParseResult).Rejected lib := by
  obtain ⟨user, port, -⟩ := parts_of_host lib isHost path
  rintro (scheme | missing | given | ⟨n, number⟩)
  · exact scheme rfl
  · rw [hostname_of_host lowers isHost] at missing
    cases missing
  · rw [user] at given
    cases given
  · rw [port] at number
    cases number

theorem folder_eq (lowers : lib.Lowers) (path : Str) : folder lib path = documentedFolder path := by
  unfold folder documentedFolder isTrack
  rw [lowers.mp3]

/-! ## The folder -/

theorem documentedFolder_of_isTrack {path : Str} (track : isTrack path = true) :
    documentedFolder path = parent path ++ ['/'] := by
  have last : path.getLast? ≠ some '/' := by
    intro slash
    obtain ⟨front, shape⟩ := List.isSuffixOf_iff_suffix.1 track
    have letter := congrArg List.getLast? shape
    rw [List.getLast?_append_of_ne_nil _ (by decide), List.getLast?_map, slash] at letter
    revert letter
    decide
  rw [documentedFolder, if_neg last, if_pos track]

theorem weight_documentedFolder (path : Str) : weight (documentedFolder path) ≤ weight path ∧
    (isTrack path = false → weight (documentedFolder path) = weight path) := by
  have parentLe : weight (parent path ++ ['/']) ≤ weight path := by
    have slash : weight ['/'] = 0 := rfl
    rw [weight_append, slash, parent]
    split_ifs
    · exact (List.take_sublist _ path).countP_le
    · exact Nat.le_refl _
  have closed : weight (path ++ ['/']) = weight path := weight_append path ['/']
  unfold documentedFolder
  split_ifs with last track
  · exact ⟨Nat.le_refl _, fun _ => rfl⟩
  · refine ⟨parentLe, fun other => ?_⟩
    rw [track] at other
    cases other
  · exact ⟨closed.le, fun _ => closed⟩

/-- The folder is the one documented exactly where the path is kept, or the folder of a track is. -/
theorem keepsFolder_iff (rest : Str) :
    documentedFolder (unquote (keptPath rest)) = documentedFolder (unquote ('/' :: rest)) ↔ KeepsFolder rest := by
  constructor
  · intro same
    rcases keptPath_cases rest with untouched | less
    · exact .inl untouched
    · -- what is lost does not count only behind the folder of a track
      have track : isTrack (unquote ('/' :: rest)) = true := by
        by_contra other
        have whole := (weight_documentedFolder (unquote ('/' :: rest))).2 (Bool.eq_false_iff.2 other)
        have kept := (weight_documentedFolder (unquote (keptPath rest))).1
        rw [same, whole] at kept
        omega
      exact .inr ⟨track, same.trans (documentedFolder_of_isTrack track)⟩
  · rintro (untouched | ⟨track, folder⟩)
    · rw [keptPath_eq_self untouched]
    · rw [folder, documentedFolder_of_isTrack track]

/-! ## The answer -/

theorem pathOrRoot_kept (host rest : Str) :
    (⟨"sftp".toList, host, keptPath rest⟩ : ParseResult).pathOrRoot = keptPath rest := if_neg (keptPath_ne_nil rest)

/-- What the function does with what `urlparse` reads. -/
theorem parseSftpUrl_cases (read : urlparse lib url = some parsed) :
    parsed.Rejected lib ∧ (∃ message, parseSftpUrl lib url = .error (.systemExit message)) ∨
      ¬ parsed.Rejected lib ∧ parsed.port = none ∧ parseSftpUrl lib url = .error .valueError ∨
      ¬ parsed.Rejected lib ∧ ∃ host, (parsed.hostname lib).filter (· ≠ []) = some host ∧
        parseSftpUrl lib url = .ok (host, folder lib (unquote parsed.pathOrRoot),
          "sftp://".toList ++ host ++ folder lib (unquote parsed.pathOrRoot)) := by
  unfold parseSftpUrl ParseResult.Rejected
  rw [read]
  dsimp only
  by_cases scheme : parsed.scheme ≠ "sftp".toList
  · rw [if_pos scheme]
    exact .inl ⟨.inl scheme, _, rfl⟩
  rw [if_neg scheme]
  cases hostname : (parsed.hostname lib).filter (· ≠ []) with
  | none => exact .inl ⟨.inr (.inl rfl), _, rfl⟩
  | some host =>
    dsimp only
    by_cases user : parsed.userGiven = true
    · rw [if_pos user]
      exact .inl ⟨.inr (.inr (.inl user)), _, rfl⟩
    rw [if_neg user]
    have passed : ∀ {number : Prop}, ¬ number →
        ¬ (parsed.scheme ≠ "sftp".toList ∨ some host = none ∨ parsed.userGiven = true ∨ number) := by
      rintro number none (other | missing | given | port)
      · exact scheme other
      · cases missing
      · exact user given
      · exact none port
    cases port : parsed.port with
    | none =>
      refine .inr (.inl ⟨passed ?_, rfl, rfl⟩)
      rintro ⟨n, same⟩
      cases same
    | some number =>
      cases number with
      | none =>
        refine .inr (.inr ⟨passed ?_, host, rfl, rfl⟩)
        rintro ⟨n, same⟩
        cases same
      | some n => exact .inl ⟨.inr (.inr (.inr ⟨n, rfl⟩)), _, rfl⟩

/-- **The answer is that of the documentation exactly where a guard rejects the URL or the URL is
a documented one that `urlparse` leaves as it is.** -/
theorem meets_iff (lowers : lib.Lowers) (url : Str) :
    Meets lib url ↔ (∃ parsed, urlparse lib url = some parsed ∧ parsed.Rejected lib) ∨ PlainUrl lib url := by
  -- what `urlparse` reads of a documented URL
  have documented : ∀ {parsed host rest}, urlparse lib url = some parsed → IsHost host → url = sftpUrl host rest →
      netlocFits lib host = true ∧ parsed = ⟨"sftp".toList, host, keptPath rest⟩ := by
    rintro parsed host rest read isHost rfl
    rw [urlparse_sftpUrl isHost] at read
    split_ifs at read with fits
    cases read
    exact ⟨fits, rfl⟩
  cases read : urlparse lib url with
  | none =>
    have raised : parseSftpUrl lib url = .error .valueError := by
      unfold parseSftpUrl
      rw [read]
    rw [Meets, raised]
    apply iff_of_false id
    rintro (⟨_, none, -⟩ | ⟨host, rest, rfl, isHost, fits, -, -⟩)
    · cases none
    · rw [urlparse_sftpUrl isHost, if_pos fits] at read
      cases read
  | some parsed =>
    rcases parseSftpUrl_cases read with
      ⟨rejected, message, answer⟩ | ⟨passed, port, answer⟩ | ⟨passed, host, hostname, answer⟩
    · rw [Meets, answer]
      apply iff_of_true
      · rintro ⟨host, rest, isHost, same⟩
        obtain ⟨-, rfl⟩ := documented read isHost same
        exact not_rejected lowers isHost _ rejected
      · exact .inl ⟨parsed, rfl, rejected⟩
    · rw [Meets, answer]
      apply iff_of_false id
      rintro (⟨_, same, rejected⟩ | ⟨host, rest, same, isHost, -⟩)
      · cases same
        exact passed rejected
      · obtain ⟨-, rfl⟩ := documented read isHost same
        rw [(parts_of_host lib isHost _).2.1] at port
        cases port
    · rw [Meets, answer]
      constructor
      · rintro ⟨rest, isHost, same, path⟩
        obtain ⟨fits, rfl⟩ := documented read isHost same
        rw [hostname_of_host lowers isHost, Option.some.injEq] at hostname
        rw [folder_eq lowers, pathOrRoot_kept] at path
        exact .inr ⟨host, rest, same, isHost, fits, hostname, (keepsFolder_iff rest).1 path⟩
      · rintro (⟨_, same, rejected⟩ | ⟨host', rest, same, isHost, fits, lower, kept⟩)
        · cases same
          exact absurd rejected passed
        · obtain ⟨-, rfl⟩ := documented read isHost same
          rw [hostname_of_host lowers isHost, lower, Option.some.injEq] at hostname
          rw [← hostname, folder_eq lowers, pathOrRoot_kept]
          exact ⟨rest, isHost, same, (keepsFolder_iff rest).2 kept⟩

/-- A library for texts in ASCII. -/
def asciiLibrary : Library := ⟨fun s => s.map Char.toLower, id, fun _ => false⟩

theorem asciiLibrary_lowers : asciiLibrary.Lowers where
  nonempty _ some none := some (List.map_eq_nil_iff.1 none)
  mp3 _ := rfl

/-- A folder, named by a track in it. -/
theorem meets_track : Meets asciiLibrary "sftp://nas/Music/a%20b.MP3".toList := by
  apply (meets_iff asciiLibrary_lowers "sftp://nas/Music/a%20b.MP3".toList).2
  right
  have plain : ("Music/a%20b.MP3".toList.all fun c => !isUnsafe c && c ≠ '?' && c ≠ '#') = true := by decide
  refine ⟨"nas".toList, "Music/a%20b.MP3".toList, rfl, .of_all (by decide) (by decide), rfl, rfl, .inl ⟨?_, by decide⟩⟩
  intro c member
  simpa [and_assoc] using List.all_eq_true.1 plain c member

/-- A host whose alias has capital letters is asked for under another name. -/
theorem host_lowered : asciiLibrary.Lowers ∧ ¬ Meets asciiLibrary "sftp://MyNas/music/".toList := by
  have answer : parseSftpUrl asciiLibrary "sftp://MyNas/music/".toList =
      .ok ("mynas".toList, "/music/".toList, "sftp://mynas/music/".toList) := by rfl
  refine ⟨asciiLibrary_lowers, ?_⟩
  rw [Meets, answer]
  rintro ⟨rest, -, same, -⟩
  have eighth := congrArg (fun url : Str => url[7]?) same
  change some 'M' = some 'm' at eighth
  revert eighth
  decide

end

end GtpLibrary.Player
