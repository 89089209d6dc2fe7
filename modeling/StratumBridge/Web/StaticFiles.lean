import StratumBridge.Foundation.Path
import StratumBridge.Bridge.Authorize
import StratumBridge.Bridge.UserAgent

/-! # The static files of the dashboard

The web server answers a few dynamic routes; every other `GET` names a file that is embedded in
the binary or lies in the static directory.
-/

namespace StratumBridge

/-! ## Splitting a request -/

/-- `str::trim_start_matches`: the pattern comes off as often as it stands in front. The text
gets shorter each time, so its length bounds the repetitions. -/
def Text.trimStartMatches (pattern text : List Char) : List Char :=
  strip text.length text
where
  strip : Nat → List Char → List Char
  | 0, text => text
  | fuel + 1, text =>
      if pattern.isPrefixOf text then strip fuel (text.drop pattern.length) else text

/-- `str::split_whitespace`. -/
def Text.splitWhitespace : List Char → List (List Char)
  | [] => []
  | char :: rest =>
      if Text.isWhiteSpace char then splitWhitespace rest
      else
        match rest with
        | [] => [[char]]
        | next :: _ =>
            if Text.isWhiteSpace next then [char] :: splitWhitespace rest
            else
              match splitWhitespace rest with
              | [] => [[char]]
              | word :: words => (char :: word) :: words

/-! ## The handler -/

/-- Where static files come from: the embedded ones, and what reading a path gives. -/
structure Assets where
  embedded : List Char → Option (List UInt8)
  manifestDir : List Char
  readFile : List Char → Option (List UInt8)

/-- Does the server answer for one instance, or for all? -/
inductive HttpMode where
  | aggregated
  | single
deriving DecidableEq

/-- The routes of the server. -/
inductive Route where
  | metrics
  | status
  | stats
  | readConfig
  | writeConfig
  | asset
  | missing
deriving DecidableEq

inductive HttpResponse where
  | dynamic (route : Route)
  | file (contentType : String) (bytes : List UInt8)
  | notFound

def requestPath (request : List Char) : List Char :=
  ((Text.splitWhitespace (Text.firstLine request))[1]?).getD ['/']

/-- The branches of `handle_http_request`, in their order. -/
def routeOf (mode : HttpMode) (request : List Char) : Route :=
  if startsWith request "GET /metrics" then .metrics
  else if startsWith request "GET /api/status" then .status
  else if startsWith request "GET /api/stats" then .stats
  else if mode = .single ∧ startsWith request "GET /api/config" then .readConfig
  else if mode = .single ∧ startsWith request "POST /api/config" then .writeConfig
  else if startsWith request "GET /" then .asset
  else .missing

def contentTypeForPath (path : List Char) : String :=
  let path := Text.toLowercase path
  let endsWith (suffix : String) : Bool := suffix.toList.isSuffixOf path
  if endsWith ".html" then "text/html; charset=utf-8"
  else if endsWith ".css" then "text/css; charset=utf-8"
  else if endsWith ".js" then "application/javascript; charset=utf-8"
  else if endsWith ".svg" then "image/svg+xml"
  else "application/octet-stream"

/-- The name of a file below the static directory, before the traversal check. -/
def relativePath (url : List Char) : Option (List Char) :=
  if url = Text.ofString "/" then some (Text.ofString "index.html")
  else if url = Text.ofString "/index.html" then some (Text.ofString "index.html")
  else if url = Text.ofString "/raw.html" then some (Text.ofString "raw.html")
  else if startsWith url "/static/" then
    some (Text.trimStartMatches (Text.ofString "/static/") url)
  else none

def Assets.staticDir (assets : Assets) : List Char :=
  Path.join assets.manifestDir (Text.ofString "static")

/-- `try_read_static_file`. -/
def tryReadStaticFile (assets : Assets) (url : List Char) :
    Option (List Char × List UInt8) :=
  match relativePath url with
  | none => none
  | some rel =>
      if Text.contains (Text.ofString "..") rel || Text.contains ['\\'] rel then none
      else
        match assets.embedded rel with
        | some contents => some (rel, contents)
        | none => (assets.readFile (Path.join assets.staticDir rel)).map fun bytes => (rel, bytes)

/-- `handle_http_request`, as far as static files are concerned. -/
def handleHttpRequest (assets : Assets) (mode : HttpMode) (request : List Char) : HttpResponse :=
  match routeOf mode request with
  | .asset =>
      match tryReadStaticFile assets (requestPath request) with
      | some (rel, bytes) => .file (contentTypeForPath rel) bytes
      | none => .notFound
  | .missing => .notFound
  | route => .dynamic route

/-! ## Stripping -/

section Strip

variable {pattern text : List Char}

/-- Stripping takes whole patterns off, until none stands in front. -/
theorem Text.trimStartMatches_spec (nonempty : pattern ≠ []) (text : List Char) :
    (∃ count, text = (List.replicate count pattern).flatten ++ trimStartMatches pattern text) ∧
      ¬pattern <+: trimStartMatches pattern text := by
  have strips : ∀ fuel text, text.length ≤ fuel →
      (∃ count, text = (List.replicate count pattern).flatten ++
        trimStartMatches.strip pattern fuel text) ∧
        ¬pattern <+: trimStartMatches.strip pattern fuel text := by
    intro fuel
    induction fuel with
    | zero =>
        intro text short
        obtain rfl := List.length_eq_zero_iff.mp (Nat.le_zero.mp short)
        exact ⟨⟨0, rfl⟩, fun starts => nonempty (List.prefix_nil.mp starts)⟩
    | succ fuel ih =>
        intro text short
        rw [trimStartMatches.strip]
        split
        case isTrue starts =>
          obtain ⟨rest, rfl⟩ := List.isPrefixOf_iff_prefix.mp starts
          have positive := List.length_pos_iff.mpr nonempty
          rw [List.length_append] at short
          rw [List.drop_left]
          obtain ⟨⟨count, same⟩, clean⟩ := ih rest (by omega)
          refine ⟨⟨count + 1, ?_⟩, clean⟩
          rw [List.replicate_succ, List.flatten_cons, List.append_assoc, ← same]
        case isFalse clean =>
          exact ⟨⟨0, rfl⟩, fun starts => clean (List.isPrefixOf_iff_prefix.mpr starts)⟩
  exact strips text.length text (Nat.le_refl _)

/-- What is left after the patterns does not depend on how they are counted. -/
theorem Text.eq_of_replicate_append {rest : List Char} (clean : ¬pattern <+: text)
    (alsoClean : ¬pattern <+: rest) {count other : Nat}
    (same : (List.replicate count pattern).flatten ++ text =
      (List.replicate other pattern).flatten ++ rest) : text = rest := by
  induction count generalizing other with
  | zero =>
      cases other with
      | zero => exact same
      | succ other =>
          refine absurd ?_ clean
          rw [List.replicate_succ, List.flatten_cons, List.append_assoc] at same
          exact ⟨_, same.symm⟩
  | succ count ih =>
      rw [List.replicate_succ, List.flatten_cons, List.append_assoc] at same
      cases other with
      | zero => exact absurd ⟨_, same⟩ alsoClean
      | succ other =>
          rw [List.replicate_succ, List.flatten_cons, List.append_assoc] at same
          exact ih (List.append_cancel_left same)

theorem Text.trimStartMatches_of_clean (nonempty : pattern ≠ []) (clean : ¬pattern <+: text)
    (count : Nat) :
    trimStartMatches pattern ((List.replicate count pattern).flatten ++ text) = text := by
  obtain ⟨⟨other, same⟩, stripped⟩ := Text.trimStartMatches_spec nonempty
    ((List.replicate count pattern).flatten ++ text)
  exact (Text.eq_of_replicate_append clean stripped same).symm

end Strip

/-! ## Where the bytes come from -/

/-- What a static file is read from. -/
inductive AssetSource where
  | embedded (rel : List Char)
  | disk (path : List Char)

def Assets.read (assets : Assets) : AssetSource → Option (List UInt8)
  | .embedded rel => assets.embedded rel
  | .disk path => assets.readFile path

/-- A name that passes the traversal check. -/
def PassesCheck (rel : List Char) : Prop :=
  ¬Text.contains (Text.ofString "..") rel ∧ ¬Text.contains ['\\'] rel

instance (rel : List Char) : Decidable (PassesCheck rel) := inferInstanceAs (Decidable (_ ∧ _))

/-- The source a request path is answered from. -/
def assetSource (assets : Assets) (url : List Char) : Option (List Char × AssetSource) :=
  match relativePath url with
  | none => none
  | some rel =>
      if PassesCheck rel then
        if (assets.embedded rel).isSome then some (rel, .embedded rel)
        else some (rel, .disk (Path.join assets.staticDir rel))
      else none

theorem tryReadStaticFile_eq (assets : Assets) (url : List Char) :
    tryReadStaticFile assets url =
      (assetSource assets url).bind fun (rel, source) =>
        (assets.read source).map fun bytes => (rel, bytes) := by
  unfold tryReadStaticFile assetSource
  cases relativePath url with
  | none => rfl
  | some rel =>
      dsimp only
      by_cases passes : PassesCheck rel
      · have clean : ¬(Text.contains (Text.ofString "..") rel || Text.contains ['\\'] rel) = true :=
          fun bad => ((Bool.or_eq_true _ _).mp bad).elim passes.1 passes.2
        rw [if_neg clean, if_pos passes]
        cases found : assets.embedded rel with
        | none => simp [Assets.read]
        | some contents => simp [Assets.read, found]
      · have bad : (Text.contains (Text.ofString "..") rel || Text.contains ['\\'] rel) = true := by
          simpa [PassesCheck, imp_iff_not_or] using passes
        rw [if_pos bad, if_neg passes]
        rfl

/-- The source is embedded, or a file below the static directory. -/
def Assets.Confined (assets : Assets) : AssetSource → Prop
  | .embedded _ => True
  | .disk path => Path.Beneath assets.staticDir path

/-- Every file the server answers with comes from a confined source. -/
def ServesConfined (assets : Assets) (mode : HttpMode) (request : List Char) : Prop :=
  ∀ contentType bytes, handleHttpRequest assets mode request = .file contentType bytes →
    ∃ rel source, assetSource assets (requestPath request) = some (rel, source) ∧
      assets.read source = some bytes ∧ assets.Confined source

/-- The path repeats the prefix and goes on with an absolute path, which passes the traversal
check and names a file elsewhere. -/
def Escapes (assets : Assets) (url : List Char) : Prop :=
  ∃ count rest, url = (List.replicate (count + 1) (Text.ofString "/static/")).flatten ++ '/' :: rest ∧
    ¬Text.ofString "/static/" <+: '/' :: rest ∧ PassesCheck ('/' :: rest) ∧
      assets.embedded ('/' :: rest) = none ∧ (assets.readFile ('/' :: rest)).isSome ∧
        ¬Path.Beneath assets.staticDir ('/' :: rest)

section Confinement

variable {assets : Assets} {url rel : List Char} {source : AssetSource}

theorem staticDir_ne_nil : assets.staticDir ≠ [] := Path.join_ne_nil (by decide)

/-- A request path with an absolute remainder repeats the prefix before it. -/
theorem relativePath_absolute (named : relativePath url = some rel)
    (absolute : Path.isAbsolute rel = true) :
    ∃ count rest, rel = '/' :: rest ∧ ¬Text.ofString "/static/" <+: rel ∧
      url = (List.replicate (count + 1) (Text.ofString "/static/")).flatten ++ rel := by
  unfold relativePath at named
  split at named
  · exact absurd (Option.some.inj named ▸ absolute) (by decide)
  split at named
  · exact absurd (Option.some.inj named ▸ absolute) (by decide)
  split at named
  · exact absurd (Option.some.inj named ▸ absolute) (by decide)
  split at named
  case isFalse => exact nomatch named
  case isTrue starts =>
    obtain rfl := Option.some.inj named
    have nonempty : Text.ofString "/static/" ≠ [] := by decide
    obtain ⟨⟨count, same⟩, clean⟩ := Text.trimStartMatches_spec nonempty url
    obtain ⟨rest, named⟩ := List.head?_eq_some_iff.mp (of_decide_eq_true absolute)
    cases count with
    | zero =>
        replace same : url = Text.trimStartMatches (Text.ofString "/static/") url := same
        exact absurd (same ▸ List.isPrefixOf_iff_prefix.mp starts) clean
    | succ count => exact ⟨count, rest, named, clean, same⟩

/-- Such a path has that remainder. -/
theorem relativePath_of_replicate {count : Nat} (clean : ¬Text.ofString "/static/" <+: rel) :
    relativePath ((List.replicate (count + 1) (Text.ofString "/static/")).flatten ++ rel) =
      some rel := by
  have nonempty : Text.ofString "/static/" ≠ [] := by decide
  have stripped := Text.trimStartMatches_of_clean nonempty clean (count + 1)
  generalize whole : (List.replicate (count + 1) (Text.ofString "/static/")).flatten ++ rel = url
    at stripped
  have starts : Text.ofString "/static/" <+: url := by
    rw [← whole, List.replicate_succ, List.flatten_cons, List.append_assoc]
    exact List.prefix_append _ _
  have other : ∀ name, ¬Text.ofString "/static/" <+: name → url ≠ name := by
    rintro name different rfl
    exact different starts
  have listed : startsWith url "/static/" = true := List.isPrefixOf_iff_prefix.mpr starts
  rw [relativePath, if_neg (other _ (by decide)), if_neg (other _ (by decide)),
    if_neg (other _ (by decide)), if_pos listed, stripped]

/-- **Confinement of one path.** Unless the path escapes, what can be read for it is confined. -/
theorem confined_of_not_escapes
    (directories : ∀ path, Path.isAbsolute path = Path.isAbsolute assets.staticDir →
      Path.components path = Path.components assets.staticDir → assets.readFile path = none)
    (inside : ¬Escapes assets url) (found : assetSource assets url = some (rel, source))
    (readable : (assets.read source).isSome) : assets.Confined source := by
  unfold assetSource at found
  split at found
  case h_1 => exact nomatch found
  case h_2 name named =>
    split at found
    case isFalse => exact nomatch found
    case isTrue passes =>
      split at found
      case isTrue =>
        cases found
        trivial
      case isFalse missing =>
        cases found
        by_cases absolute : Path.isAbsolute rel = true
        · obtain ⟨count, rest, rfl, clean, rfl⟩ := relativePath_absolute named absolute
          rw [Path.join_of_absolute absolute] at readable ⊢
          by_contra outside
          exact inside ⟨count, rest, rfl, clean, passes, Option.not_isSome_iff_eq_none.mp missing,
            readable, outside⟩
        · have relative := Bool.eq_false_iff.mpr absolute
          refine Path.beneath_join staticDir_ne_nil relative ?_ fun parent => ?_
          · intro nothing
            have same : Path.components (Path.join assets.staticDir rel) =
                Path.components assets.staticDir := by
              rw [Path.components_join relative, nothing, List.append_nil]
            have unread := directories _ (Path.isAbsolute_join staticDir_ne_nil relative) same
            exact absurd readable (Option.not_isSome_iff_eq_none.mpr unread)
          · exact passes.1 (Text.contains_iff_within.mpr (Path.infix_of_mem_components parent))

theorem handleHttpRequest_file {mode : HttpMode} {request : List Char} {contentType : String}
    {bytes : List UInt8} :
    handleHttpRequest assets mode request = .file contentType bytes ↔
      routeOf mode request = .asset ∧ ∃ rel,
        tryReadStaticFile assets (requestPath request) = some (rel, bytes) ∧
          contentType = contentTypeForPath rel := by
  unfold handleHttpRequest
  cases routeOf mode request with
  | asset =>
      dsimp only
      cases tryReadStaticFile assets (requestPath request) with
      | none => simp
      | some found => 
          obtain ⟨rel, contents⟩ := found
          constructor
          · intro same
            cases same
            exact ⟨rfl, rel, rfl, rfl⟩
          · rintro ⟨-, _, same, rfl⟩
            cases same
            rfl
  | _ => simp

/-- **Static files.** Given that the static directory itself cannot be read as a file, a request
is answered from confined sources only, unless its path escapes. -/
theorem serves_confined_iff
    (directories : ∀ path, Path.isAbsolute path = Path.isAbsolute assets.staticDir →
      Path.components path = Path.components assets.staticDir → assets.readFile path = none)
    (mode : HttpMode) (request : List Char) :
    ServesConfined assets mode request ↔
      ¬(routeOf mode request = .asset ∧ Escapes assets (requestPath request)) := by
  constructor
  · rintro confined ⟨asset, count, rest, path, clean, passes, missing, readable, outside⟩
    obtain ⟨bytes, read⟩ := Option.isSome_iff_exists.mp readable
    have absolute : Path.isAbsolute ('/' :: rest) = true := rfl
    have source : assetSource assets (requestPath request) =
        some ('/' :: rest, .disk ('/' :: rest)) := by
      rw [assetSource, path, relativePath_of_replicate clean]
      simp only [if_pos passes, missing, Option.isSome_none, Bool.false_eq_true, if_false,
        Path.join_of_absolute absolute]
    have served : tryReadStaticFile assets (requestPath request) = some ('/' :: rest, bytes) := by
      rw [tryReadStaticFile_eq, source]
      simp [Assets.read, read]
    obtain ⟨rel, found, same, -, beneath⟩ :=
      confined _ bytes (handleHttpRequest_file.mpr ⟨asset, _, served, rfl⟩)
    obtain rfl := (Prod.mk.inj (Option.some.inj (source.symm.trans same))).2
    exact outside beneath
  · intro inside contentType bytes answered
    obtain ⟨asset, rel, served, -⟩ := handleHttpRequest_file.mp answered
    rw [tryReadStaticFile_eq] at served
    obtain ⟨⟨name, source⟩, found, read⟩ := Option.bind_eq_some_iff.mp served
    obtain ⟨contents, same, pair⟩ := Option.map_eq_some_iff.mp read
    cases pair
    refine ⟨_, source, found, same, ?_⟩
    exact confined_of_not_escapes directories (fun escapes => inside ⟨asset, escapes⟩) found
      (Option.isSome_iff_exists.mpr ⟨_, same⟩)

end Confinement

/-! ## Sample requests -/

namespace Sample

/-- A server in `/srv` with an embedded page, on a host with a password file. -/
def assets : Assets where
  embedded rel := if rel = Text.ofString "index.html" then some [60] else none
  manifestDir := Text.ofString "/srv"
  readFile path :=
    if path = Text.ofString "/etc/passwd" then some [114]
    else if path = Text.ofString "/srv/static/css/a.css" then some [98]
    else none

theorem assets_directories (path : List Char)
    (same : Path.components path = Path.components assets.staticDir) :
    assets.readFile path = none := by
  have passwd : path ≠ Text.ofString "/etc/passwd" := by
    rintro rfl
    exact absurd same (by decide)
  have style : path ≠ Text.ofString "/srv/static/css/a.css" := by
    rintro rfl
    exact absurd same (by decide)
  exact (if_neg passwd).trans (if_neg style)

/-- A style sheet is served from the static directory. -/
theorem serves_confined_iff_sample :
    ServesConfined assets .aggregated (Text.ofString "GET /static/css/a.css HTTP/1.1") := by
  refine (serves_confined_iff (fun path _ => assets_directories path) _ _).mpr ?_
  have path : requestPath (Text.ofString "GET /static/css/a.css HTTP/1.1") =
      Text.ofString "/static/css/a.css" := by
    decide
  have relative : relativePath (Text.ofString "/static/css/a.css") =
      some (Text.ofString "css/a.css") := by
    decide
  rintro ⟨-, count, rest, same, clean, -⟩
  rw [← path, same, relativePath_of_replicate clean] at relative
  exact absurd (Option.some.inj relative) (fun absurdity => nomatch absurdity)

/-- A doubled slash reads a file of the host. -/
theorem serves_outside :
    handleHttpRequest assets .aggregated (Text.ofString "GET /static//etc/passwd HTTP/1.1") =
        .file "application/octet-stream" [114] ∧
      ¬ServesConfined assets .aggregated (Text.ofString "GET /static//etc/passwd HTTP/1.1") := by
  have answered : handleHttpRequest assets .aggregated
      (Text.ofString "GET /static//etc/passwd HTTP/1.1") =
        .file "application/octet-stream" [114] := by
    rfl
  refine ⟨answered, fun confined => ?_⟩
  obtain ⟨rel, source, found, -, inside⟩ := confined _ _ answered
  have consulted : assetSource assets
      (requestPath (Text.ofString "GET /static//etc/passwd HTTP/1.1")) =
        some (Text.ofString "/etc/passwd", .disk (Text.ofString "/etc/passwd")) := by
    rfl
  rw [consulted] at found
  cases found
  obtain ⟨names, same, -⟩ := inside.inside
  have heads : some (Text.ofString "etc") = some (Text.ofString "srv") :=
    congrArg List.head? same
  exact absurd heads (by decide)

end Sample

end StratumBridge
