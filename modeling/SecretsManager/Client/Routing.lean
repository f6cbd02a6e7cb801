import SecretsManager.Client.Wire

/-!
# What a call is taken for

A name without reserved characters comes out of the router as it went into the
URL. So a call whose names need no escaping is taken for itself, and a call
whose names need it is taken for another one, since no valid name needs it.
-/

namespace SecretsManager

/-! ## What is sent of a URL -/

lemma beforeFirst_append {stop : Char} {head : String} (clean : ∀ ch ∈ head.toList, ch ≠ stop)
    (rest : String) : beforeFirst stop (head ++ rest) = head ++ beforeFirst stop rest := by
  apply String.toList_inj.mp
  simp only [beforeFirst, String.toList_append, String.toList_ofList]
  apply List.takeWhile_append_of_pos
  intro ch hch
  simpa using clean ch hch

lemma clean_of_all {s : String} (h : (s.toList.all fun ch => ch ≠ '#' && ch ≠ '?') = true) :
    ∀ ch ∈ s.toList, ch ≠ '#' ∧ ch ≠ '?' := by
  simpa using h

lemma sentPath_append {head : String} (clean : ∀ ch ∈ head.toList, ch ≠ '#' ∧ ch ≠ '?')
    (rest : String) : sentPath (head ++ rest) = head ++ sentPath rest := by
  unfold sentPath
  rw [beforeFirst_append (fun ch hch => (clean ch hch).1),
    beforeFirst_append fun ch hch => (clean ch hch).2]

lemma sentPath_clean {s : String} (clean : ∀ ch ∈ s.toList, ch ≠ '#' ∧ ch ≠ '?') :
    sentPath s = s := by
  have whole : s ++ "" = s := String.append_empty
  calc sentPath s = sentPath (s ++ "") := by rw [whole]
    _ = s ++ sentPath "" := sentPath_append clean ""
    _ = s ++ "" := congrArg (s ++ ·) (by decide)
    _ = s := whole

lemma stripPrefix_append (head rest : String) : stripPrefix head (head ++ rest) = some rest := by
  have h : head.toList.isPrefixOf? (head ++ rest).toList = some rest.toList := by
    rw [List.isPrefixOf?_eq_some_iff_append_eq, String.toList_append]
  rw [stripPrefix, h]
  simp

lemma unreserved_chars {name : String} (h : hasReserved name = false) :
    ∀ ch ∈ name.toList, ch ≠ '#' ∧ ch ≠ '?' := by
  intro ch hch
  have bytes : ∀ b ∈ utf8 name, ¬ (b = 35 ∨ b = 63 ∨ b = 37) := by
    simpa [hasReserved, or_assoc] using h
  constructor <;> rintro rfl
  · exact bytes 35 (mem_utf8 hch (by decide)) (Or.inl rfl)
  · exact bytes 63 (mem_utf8 hch (by decide)) (Or.inr (Or.inl rfl))

lemma percentDecode_unreserved {name : String} (h : hasReserved name = false) :
    percentDecode name = some name := by
  have bytes : ∀ b ∈ utf8 name, b ≠ 37 := by
    intro b hb same
    have reserved : hasReserved name = true := List.any_eq_true.mpr ⟨b, hb, by simp [same]⟩
    rw [h] at reserved
    cases reserved
  rw [percentDecode, percentDecodeBytes_id bytes, fromUtf8_utf8]

/-- A valid name has no reserved character. -/
lemma validName_unreserved {limit : Nat} {extra : Bytes} {name : String}
    (apart : (extra.all fun b => b ≠ 35 && b ≠ 63 && b ≠ 37) = true)
    (valid : validName limit extra name = true) :
    hasReserved name = false := by
  simp only [validName, decide_eq_true_eq, List.all_eq_true] at valid
  apply List.any_eq_false.mpr
  intro b hb
  have allowed := valid.2.2 b hb
  rw [Bool.or_eq_true] at allowed
  have unreserved : b ≠ 35 ∧ b ≠ 63 ∧ b ≠ 37 := by
    rcases allowed with letter | special
    · refine ⟨?_, ?_, ?_⟩ <;> rintro rfl <;> exact absurd letter (by decide)
    · simpa [and_assoc] using List.all_eq_true.mp apart b (by simpa using special)
  simp [unreserved]

lemma validProject_unreserved {name : String} (valid : validProject name = true) :
    hasReserved name = false := validName_unreserved (by decide) valid

lemma validKey_unreserved {key : String} (valid : validKey key = true) :
    hasReserved key = false := validName_unreserved (by decide) valid

/-! ## Routes of the calls -/

lemma pathSegments_append (head rest : String) :
    pathSegments (head ++ "/" ++ rest) = pathSegments head ++ pathSegments rest := by
  have split : (head ++ "/" ++ rest).toList = head.toList ++ '/' :: rest.toList := by simp
  unfold pathSegments
  rw [split, List.splitOn_append_cons_self, List.map_append]

lemma pathSegments_ne_nil (path : String) : pathSegments path ≠ [] := by simp [pathSegments]

/-- A path of one segment is that segment. -/
lemma pathSegments_one {path a : String} (h : pathSegments path = [a]) : path = a := by
  unfold pathSegments at h
  obtain ⟨l, hl, rfl⟩ := List.map_eq_singleton_iff.mp h
  have joined : ['/'].intercalate (path.toList.splitOn '/') = path.toList :=
    List.intercalate_splitOn '/'
  rw [hl] at joined
  apply String.toList_inj.mp
  simpa using joined.symm

lemma projects_segments (rest : String) :
    pathSegments ("/v1/projects/" ++ rest) = "" :: "v1" :: "projects" :: pathSegments rest := by
  have head : pathSegments "/v1/projects" = ["", "v1", "projects"] := by decide
  rw [show "/v1/projects/" ++ rest = "/v1/projects" ++ "/" ++ rest from rfl, pathSegments_append,
    head]
  rfl

lemma tokens_segments (rest : String) :
    pathSegments ("/v1/tokens/" ++ rest) = "" :: "v1" :: "tokens" :: pathSegments rest := by
  have head : pathSegments "/v1/tokens" = ["", "v1", "tokens"] := by decide
  rw [show "/v1/tokens/" ++ rest = "/v1/tokens" ++ "/" ++ rest from rfl, pathSegments_append, head]
  rfl

lemma matchRoute_projects {segments : List String} (more : segments ≠ []) {route : Route}
    (h : matchRoute ("" :: "v1" :: "projects" :: segments) = some route) :
    (∃ a, segments = [a, "secrets"] ∧ route = .secrets a) ∨
      ∃ a b, segments = [a, "secrets", b] ∧ route = .secret a b := by
  unfold matchRoute at h
  split at h <;> simp_all

lemma matchRoute_tokens {segments : List String} (more : segments ≠ []) {route : Route}
    (h : matchRoute ("" :: "v1" :: "tokens" :: segments) = some route) :
    ∃ a, segments = [a] ∧ route = .token a := by
  unfold matchRoute at h
  split at h <;> simp_all

/-- The routes that a call can end on. -/
def ClientCall.Reaches : ClientCall → Route → Prop
  | .revokeToken _, route => ∃ a, route = .token a
  | _, route => (∃ a, route = .secrets a) ∨ ∃ a b, route = .secret a b

lemma ClientCall.reaches {call : ClientCall} {route : Route}
    (h : matchRoute (pathSegments (sentPath call.path)) = some route) : call.Reaches route := by
  have projects : ∀ rest, matchRoute (pathSegments (sentPath ("/v1/projects/" ++ rest))) =
      some route → (∃ a, route = .secrets a) ∨ ∃ a b, route = .secret a b := by
    intro rest h
    rw [sentPath_append (clean_of_all (by decide)), projects_segments] at h
    rcases matchRoute_projects (pathSegments_ne_nil _) h with ⟨a, _, same⟩ | ⟨a, b, _, same⟩
    · exact Or.inl ⟨a, same⟩
    · exact Or.inr ⟨a, b, same⟩
  cases call with
  | setSecret project key value =>
    refine projects (project ++ "/secrets/" ++ key) ?_
    simpa only [path, Api.secretPath, String.append_assoc] using h
  | getSecrets project =>
    refine projects (project ++ "/secrets") ?_
    simpa only [path, Api.secretsPath, String.append_assoc] using h
  | revokeToken name =>
    simp only [path, Api.tokenPath] at h
    rw [sentPath_append (clean_of_all (by decide)), tokens_segments] at h
    obtain ⟨a, _, same⟩ := matchRoute_tokens (pathSegments_ne_nil _) h
    exact ⟨a, same⟩

/-! ## Names that need no escaping -/

lemma unreserved_append {a b : String} (ha : ∀ ch ∈ a.toList, ch ≠ '#' ∧ ch ≠ '?')
    (hb : ∀ ch ∈ b.toList, ch ≠ '#' ∧ ch ≠ '?') : ∀ ch ∈ (a ++ b).toList, ch ≠ '#' ∧ ch ≠ '?' := by
  intro ch hch
  rw [String.toList_append, List.mem_append] at hch
  rcases hch with h | h
  · exact ha ch h
  · exact hb ch h

lemma path_clean {call : ClientCall} (plain : call.needsEscaping = false) :
    ∀ ch ∈ call.path.toList, ch ≠ '#' ∧ ch ≠ '?' := by
  cases call with
  | setSecret project secretKey value =>
    simp only [ClientCall.needsEscaping, Bool.or_eq_false_iff] at plain
    apply unreserved_append _ (unreserved_chars plain.2)
    apply unreserved_append _ (clean_of_all (by decide))
    exact unreserved_append (clean_of_all (by decide)) (unreserved_chars plain.1)
  | getSecrets project =>
    apply unreserved_append _ (clean_of_all (by decide))
    exact unreserved_append (clean_of_all (by decide)) (unreserved_chars plain)
  | revokeToken name => exact unreserved_append (clean_of_all (by decide)) (unreserved_chars plain)

lemma secretsPath_segments (project : String) : pathSegments (Api.secretsPath project) =
    "" :: "v1" :: "projects" :: (pathSegments project ++ ["secrets"]) := by
  have split : Api.secretsPath project = "/v1/projects/" ++ (project ++ "/" ++ "secrets") := by
    apply String.toList_inj.mp
    simp [Api.secretsPath]
  rw [split, projects_segments, pathSegments_append]
  rfl

lemma secretPath_segments (project secretKey : String) :
    pathSegments (Api.secretPath project secretKey) =
      "" :: "v1" :: "projects" :: (pathSegments project ++ "secrets" :: pathSegments secretKey) := by
  have split : Api.secretPath project secretKey =
      "/v1/projects/" ++ (project ++ "/" ++ ("secrets" ++ "/" ++ secretKey)) := by
    apply String.toList_inj.mp
    simp [Api.secretPath]
  rw [split, projects_segments, pathSegments_append, pathSegments_append]
  rfl

lemma setSecret_takenAs {project secretKey value : String} {route : Route} {call' : ClientCall}
    (taken : (ClientCall.setSecret project secretKey value).takenAs route = some call') :
    ∃ a b name k, route = .secret a b ∧ percentDecode a = some name ∧ percentDecode b = some k ∧
      validProject name = true ∧ validKey k = true ∧ call' = .setSecret name k value := by
  cases route with
  | secret a b =>
    simp only [ClientCall.takenAs, Option.bind_eq_bind, Option.bind_eq_some_iff] at taken
    obtain ⟨name, decodedName, k, decodedKey, taken⟩ := taken
    obtain ⟨valid, same⟩ := Option.ite_none_right_eq_some.mp taken
    rw [Bool.and_eq_true] at valid
    exact ⟨a, b, name, k, rfl, decodedName, decodedKey, valid.1, valid.2, (Option.some.inj same).symm⟩
  | _ => cases taken

lemma getSecrets_takenAs {project : String} {route : Route} {call' : ClientCall}
    (taken : (ClientCall.getSecrets project).takenAs route = some call') :
    ∃ a name, route = .secrets a ∧ percentDecode a = some name ∧ validProject name = true ∧
      call' = .getSecrets name := by
  cases route with
  | secrets a =>
    simp only [ClientCall.takenAs, Option.bind_eq_bind, Option.bind_eq_some_iff] at taken
    obtain ⟨name, decoded, taken⟩ := taken
    obtain ⟨valid, same⟩ := Option.ite_none_right_eq_some.mp taken
    exact ⟨a, name, rfl, decoded, valid, (Option.some.inj same).symm⟩
  | _ => cases taken

lemma revokeToken_takenAs {name : String} {route : Route} {call' : ClientCall}
    (taken : (ClientCall.revokeToken name).takenAs route = some call') :
    ∃ a name', route = .token a ∧ percentDecode a = some name' ∧ validProject name' = true ∧
      call' = .revokeToken name' := by
  cases route with
  | token a =>
    simp only [ClientCall.takenAs, Option.bind_eq_bind, Option.bind_eq_some_iff] at taken
    obtain ⟨name', decoded, taken⟩ := taken
    obtain ⟨valid, same⟩ := Option.ite_none_right_eq_some.mp taken
    exact ⟨a, name', rfl, decoded, valid, (Option.some.inj same).symm⟩
  | _ => cases taken

/-- A call whose names need no escaping is taken for itself. -/
theorem takenFor_plain {call call' : ClientCall} (plain : call.needsEscaping = false)
    (taken : call.takenFor = some call') : call' = call := by
  unfold ClientCall.takenFor at taken
  obtain ⟨route, found, taken⟩ := Option.bind_eq_some_iff.mp taken
  rw [sentPath_clean (path_clean plain)] at found
  cases call with
  | setSecret project secretKey value =>
    simp only [ClientCall.needsEscaping, Bool.or_eq_false_iff] at plain
    obtain ⟨a, b, name, k, rfl, decodedName, decodedKey, _, _, rfl⟩ := setSecret_takenAs taken
    simp only [ClientCall.path, secretPath_segments] at found
    rcases matchRoute_projects (by simp) found with ⟨_, _, same⟩ | ⟨_, _, segments, same⟩
    · cases same
    cases same
    obtain ⟨x, xs, hx⟩ := List.exists_cons_of_ne_nil (pathSegments_ne_nil project)
    obtain ⟨y, ys, hy⟩ := List.exists_cons_of_ne_nil (pathSegments_ne_nil secretKey)
    have one : xs = [] ∧ ys = [] := by
      have lengths := congrArg List.length segments
      simp only [hx, hy, List.length_append, List.length_cons, List.length_nil] at lengths
      constructor <;> apply List.eq_nil_of_length_eq_zero <;> omega
    obtain ⟨rfl, rfl⟩ := one
    rw [hx, hy] at segments
    simp only [List.cons_append, List.nil_append, List.cons.injEq, and_true, true_and] at segments
    obtain ⟨rfl, rfl⟩ := segments
    obtain rfl := pathSegments_one hx
    obtain rfl := pathSegments_one hy
    rw [percentDecode_unreserved plain.1] at decodedName
    rw [percentDecode_unreserved plain.2] at decodedKey
    rw [Option.some.inj decodedName, Option.some.inj decodedKey]
  | getSecrets project =>
    obtain ⟨a, name, rfl, decoded, _, rfl⟩ := getSecrets_takenAs taken
    simp only [ClientCall.path, secretsPath_segments] at found
    rcases matchRoute_projects (by simp) found with ⟨_, segments, same⟩ | ⟨_, _, _, same⟩
    · cases same
      obtain rfl := pathSegments_one (List.append_cancel_right segments)
      rw [percentDecode_unreserved plain] at decoded
      rw [Option.some.inj decoded]
    · cases same
  | revokeToken name =>
    obtain ⟨a, name', rfl, decoded, _, rfl⟩ := revokeToken_takenAs taken
    simp only [ClientCall.path, Api.tokenPath, tokens_segments] at found
    obtain ⟨_, segments, same⟩ := matchRoute_tokens (pathSegments_ne_nil name) found
    cases same
    obtain rfl := pathSegments_one segments
    rw [percentDecode_unreserved plain] at decoded
    rw [Option.some.inj decoded]

/-- A project typed without reserved characters is taken for itself. -/
lemma TakenProject.plain {typed project : String} (taken : TakenProject typed project)
    (plain : hasReserved typed = false) : project = typed :=
  ClientCall.getSecrets.inj (@takenFor_plain (.getSecrets typed) _ plain taken)

/-- So is a secret. -/
lemma TakenSecret.plain {typed typedKey project secretKey : String}
    (taken : TakenSecret typed typedKey project secretKey)
    (plain : (hasReserved typed || hasReserved typedKey) = false) :
    project = typed ∧ secretKey = typedKey := by
  have same := ClientCall.setSecret.inj
    (@takenFor_plain (.setSecret typed typedKey "") _ plain (taken ""))
  exact ⟨same.1, same.2.1⟩

/-- What a put is taken for has its value, whatever that is. -/
lemma takenSecret_of_takenFor {typed typedKey value : String} {call' : ClientCall}
    (taken : (ClientCall.setSecret typed typedKey value).takenFor = some call') :
    ∃ project secretKey, call' = .setSecret project secretKey value ∧
      TakenSecret typed typedKey project secretKey := by
  obtain ⟨route, found, taken⟩ := Option.bind_eq_some_iff.mp taken
  obtain ⟨a, b, name, k, rfl, decodedName, decodedKey, validName, validKey, rfl⟩ :=
    setSecret_takenAs taken
  refine ⟨name, k, rfl, fun other => ?_⟩
  have found : matchRoute (pathSegments (sentPath (ClientCall.setSecret typed typedKey
    other).path)) = some (.secret a b) := found
  rw [ClientCall.takenFor, found]
  simp [ClientCall.takenAs, decodedName, decodedKey, validName, validKey]

/-- No call is taken for one that needs escaping. -/
theorem takenFor_escaping {call call' : ClientCall} (taken : call.takenFor = some call') :
    call'.needsEscaping = false := by
  obtain ⟨route, _, taken⟩ := Option.bind_eq_some_iff.mp taken
  cases call with
  | setSecret project secretKey value =>
    obtain ⟨_, _, name, k, _, _, _, validName, validKey, rfl⟩ := setSecret_takenAs taken
    simp [ClientCall.needsEscaping, validProject_unreserved validName,
      validKey_unreserved validKey]
  | getSecrets project =>
    obtain ⟨_, name, _, _, valid, rfl⟩ := getSecrets_takenAs taken
    exact validProject_unreserved valid
  | revokeToken name =>
    obtain ⟨_, name', _, _, valid, rfl⟩ := revokeToken_takenAs taken
    exact validProject_unreserved valid

end SecretsManager
