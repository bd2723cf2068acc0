import NewCPP.Library.CharString

/-!
# The URI parser

`NaiveURIParser` takes a URI apart into protocol, host, port and path, in four steps that
hand what they have not consumed to the next one.

* `parse_format_iff` — which URIs are read back: those with a path behind `//` never are.
  The piece that `consumeHostAndPort` extracts is counted from the wrong end, and the
  slash with which the path starts is dropped.

## Design notes

**Strings.**  A string is a list of characters.  `std::tolower` is that of the C locale.

**Members.**  Each step takes the parser as it is and returns it with what is left.

**Purpose.**  `Uri` are the parts that a URI is put together from, and `Uri.format` puts them
together; `PathUri` is the form with one slash.  Reading back is compared with these parts, not
with a grammar: what the parser makes of strings of other forms is whatever its four steps do.

**Well-formed parts.**  That no separator occurs inside a part where it would end it is in the
fields of `Uri` and `PathUri`, so that the theorem needs no hypotheses.
-/

namespace NewCPP.Network

open Library.CharString

/-- What the parser has found so far, and whether it is still satisfied. -/
structure NaiveURIParser where
  protocol : List Char := []
  path : List Char := []
  host : List Char := []
  port : List Char := []
  valid : Bool := true
  deriving DecidableEq

namespace NaiveURIParser

/-- What is in front of the first colon, in lower case; what follows is left. -/
def consumeProtocol (uri : List Char) (parser : NaiveURIParser) :
    List Char × NaiveURIParser :=
  if uri = [] then ([], { parser with valid := false })
  else
    match find [':'] uri with
    | none => ([], { parser with valid := false })
    | some pos =>
        (if pos < uri.length - 1 then uri.drop (pos + 1) else [],
          { parser with protocol := (uri.take pos).map Char.toLower })

/-- The host and the port, which a colon separates. -/
def extractHostAndPort (partialUri : List Char) (parser : NaiveURIParser) : NaiveURIParser :=
  match find [':'] partialUri with
  | none => { parser with host := partialUri }
  | some pos =>
      { parser with
        host := partialUri.take pos
        port := if pos < partialUri.length - 1 then partialUri.drop (pos + 1) else [] }

/-- Behind `//` the host and the port, up to the next slash. -/
def consumeHostAndPort (partialUri : List Char) (parser : NaiveURIParser) :
    List Char × NaiveURIParser :=
  if partialUri = [] then ([], parser)
  else if find ['/', '/'] partialUri ≠ some 0 then (partialUri, parser)
  else
    match findFrom ['/'] partialUri 2 with
    | none => ([], parser.extractHostAndPort (partialUri.drop 2))
    | some pos2 =>
        (if pos2 < partialUri.length - 1 then partialUri.drop (pos2 + 1) else [],
          -- `substr(2, pos2)`: the second argument is a length
          parser.extractHostAndPort ((partialUri.drop 2).take pos2))

/-- What is left is the path, if it begins with a slash. -/
def consumePath (partialUri : List Char) (parser : NaiveURIParser) : NaiveURIParser :=
  if partialUri.head? = some '/' then { parser with path := partialUri } else parser

/-- The three parts one after the other; a URI needs one of path, host and port. -/
def parse (uri : List Char) : NaiveURIParser :=
  let consumed := consumeProtocol uri {}
  let consumed := consumeHostAndPort consumed.1 consumed.2
  let parser := consumePath consumed.1 consumed.2
  { parser with
    valid := parser.valid && (parser.path ≠ [] || parser.host ≠ [] || parser.port ≠ []) }

end NaiveURIParser

/-! ## Well-formed URIs -/

/-- The parts of a URI with a host and a port, either of which may be missing. -/
structure Uri where
  protocol : List Char
  host : List Char
  port : Option (List Char)
  path : List Char
  protocol_colon : ':' ∉ protocol
  host_slash : '/' ∉ host
  host_colon : ':' ∉ host
  port_slash : ∀ port' ∈ port, '/' ∉ port'
  path_start : path = [] ∨ path.head? = some '/'
  nonempty : ¬(host = [] ∧ port.getD [] = [] ∧ path = [])

namespace Uri

/-- The host, and the port behind a colon. -/
def authority (uri : Uri) : List Char :=
  uri.host ++ uri.port.elim [] fun port => ':' :: port

/-- How such a URI is written. -/
def format (uri : Uri) : List Char :=
  uri.protocol ++ ':' :: '/' :: '/' :: (uri.authority ++ uri.path)

/-- What a parser has to make of it. -/
def parsed (uri : Uri) : NaiveURIParser :=
  { protocol := uri.protocol.map Char.toLower
    path := uri.path
    host := uri.host
    port := uri.port.getD []
    valid := true }

/-- No slash is in a host or a port. -/
theorem slash_not_mem_authority (uri : Uri) : '/' ∉ uri.authority := by
  have hport := uri.port_slash
  rw [authority]
  cases hcase : uri.port with
  | none => simpa using uri.host_slash
  | some port =>
      rw [hcase] at hport
      simpa using ⟨uri.host_slash, hport port rfl⟩

end Uri

/-- The parts of a URI that has a path only, which does not start with `//`. -/
structure PathUri where
  protocol : List Char
  /-- The path behind its first slash. -/
  rest : List Char
  protocol_colon : ':' ∉ protocol
  rest_start : rest.head? ≠ some '/'

namespace PathUri

/-- How it is written, with one slash behind the colon. -/
def format (uri : PathUri) : List Char :=
  uri.protocol ++ ':' :: '/' :: uri.rest

/-- What the parser should find in it. -/
def parsed (uri : PathUri) : NaiveURIParser :=
  { protocol := uri.protocol.map Char.toLower
    path := '/' :: uri.rest
    host := []
    port := []
    valid := true }

end PathUri

/-! ## The steps -/

namespace NaiveURIParser

/-- What is behind a position, whether or not it is the last one. -/
theorem drop_succ_of_last {s : List Char} (pos : ℕ) :
    (if pos < s.length - 1 then s.drop (pos + 1) else []) = s.drop (pos + 1) := by
  split
  · rfl
  · rename_i hpos
    exact (List.drop_eq_nil_of_le (by omega)).symm

/-- The first colon ends the protocol. -/
theorem consumeProtocol_append {protocol : List Char} (h : ':' ∉ protocol)
    (rest : List Char) (parser : NaiveURIParser) :
    consumeProtocol (protocol ++ ':' :: rest) parser =
      (rest, { parser with protocol := protocol.map Char.toLower }) := by
  rw [consumeProtocol, if_neg (by simp), find_singleton_append h]
  simp only [drop_succ_of_last]
  rw [drop_succ_append, List.take_left]

/-- A host without a port. -/
theorem extractHostAndPort_host {host : List Char} (h : ':' ∉ host)
    (parser : NaiveURIParser) :
    extractHostAndPort host parser = { parser with host := host } := by
  rw [extractHostAndPort, find_singleton_eq_none h]

/-- A host with one. -/
theorem extractHostAndPort_append {host : List Char} (h : ':' ∉ host) (port : List Char)
    (parser : NaiveURIParser) :
    extractHostAndPort (host ++ ':' :: port) parser =
      { parser with host := host, port := port } := by
  rw [extractHostAndPort, find_singleton_append h]
  simp only [drop_succ_of_last]
  rw [drop_succ_append, List.take_left]

/-- The path is found elsewhere. -/
theorem path_extractHostAndPort (partialUri : List Char) (parser : NaiveURIParser) :
    (extractHostAndPort partialUri parser).path = parser.path := by
  rw [extractHostAndPort]
  split <;> rfl

/-- Without a slash behind `//` all the rest is host and port. -/
theorem consumeHostAndPort_of_not_mem {authority : List Char} (h : '/' ∉ authority)
    (parser : NaiveURIParser) :
    consumeHostAndPort ('/' :: '/' :: authority) parser =
      ([], parser.extractHostAndPort authority) := by
  have hslashes : find ['/', '/'] ('/' :: '/' :: authority) = some 0 :=
    (find_eq_zero_iff _ _).2 ⟨authority, rfl⟩
  have hnone : findFrom ['/'] ('/' :: '/' :: authority) 2 = none :=
    congrArg (Option.map (· + 2)) (find_singleton_eq_none h)
  rw [consumeHostAndPort, if_neg (List.cons_ne_nil _ _), if_neg (not_not.2 hslashes), hnone]
  rfl

/-- The slash behind the authority is consumed with it. -/
theorem consumeHostAndPort_append {authority : List Char} (h : '/' ∉ authority)
    (rest : List Char) (parser : NaiveURIParser) :
    consumeHostAndPort ('/' :: '/' :: (authority ++ '/' :: rest)) parser =
      (rest, parser.extractHostAndPort
        ((authority ++ '/' :: rest).take (authority.length + 2))) := by
  have hslashes : find ['/', '/'] ('/' :: '/' :: (authority ++ '/' :: rest)) = some 0 :=
    (find_eq_zero_iff _ _).2 ⟨_, rfl⟩
  have hfound : findFrom ['/'] ('/' :: '/' :: (authority ++ '/' :: rest)) 2 =
      some (authority.length + 2) :=
    congrArg (Option.map (· + 2)) (find_singleton_append h rest)
  rw [consumeHostAndPort, if_neg (List.cons_ne_nil _ _), if_neg (not_not.2 hslashes), hfound]
  simp only [drop_succ_of_last]
  rw [List.drop_succ_cons, List.drop_succ_cons, drop_succ_append]
  rfl

/-- A path that does not start with `//` is handed on. -/
theorem consumeHostAndPort_path {rest : List Char} (h : rest.head? ≠ some '/')
    (parser : NaiveURIParser) :
    consumeHostAndPort ('/' :: rest) parser = ('/' :: rest, parser) := by
  have hslashes : find ['/', '/'] ('/' :: rest) ≠ some 0 := by
    rw [Ne, find_eq_zero_iff, List.cons_prefix_cons]
    rintro ⟨-, hprefix⟩
    obtain ⟨tail, rfl⟩ := hprefix
    exact h rfl
  rw [consumeHostAndPort, if_neg (List.cons_ne_nil _ _), if_pos hslashes]

/-! ## Whole URIs -/

/-- A path behind an authority comes without its first slash, if it comes at all. -/
theorem path_parse_ne {uri : Uri} {rest : List Char} (h : uri.path = '/' :: rest) :
    (parse uri.format).path ≠ uri.path := by
  have hpath : (parse uri.format).path = if rest.head? = some '/' then rest else [] := by
    simp only [parse, Uri.format, consumeProtocol_append uri.protocol_colon, h,
      consumeHostAndPort_append uri.slash_not_mem_authority, consumePath]
    split
    · rfl
    · exact path_extractHostAndPort _ _
  rw [hpath, h]
  split
  · exact (List.cons_ne_self _ _).symm
  · exact (List.cons_ne_nil _ _).symm

/-- Without a path host and port are read back. -/
theorem parse_of_path_nil {uri : Uri} (h : uri.path = []) : parse uri.format = uri.parsed := by
  have hnonempty := uri.nonempty
  simp only [parse, Uri.format, consumeProtocol_append uri.protocol_colon, h, List.append_nil,
    consumeHostAndPort_of_not_mem uri.slash_not_mem_authority, consumePath, Uri.parsed]
  cases hport : uri.port with
  | none =>
      have hhost : uri.host ≠ [] := by simpa [h, hport] using hnonempty
      simp [Uri.authority, hport, extractHostAndPort_host uri.host_colon, hhost]
  | some port =>
      have hparts : uri.host = [] → port ≠ [] := by simpa [h, hport] using hnonempty
      simp [Uri.authority, hport, extractHostAndPort_append uri.host_colon]
      exact or_iff_not_imp_left.2 fun hhost => hparts (not_not.1 hhost)

/-- A URI with one slash has a path only. -/
theorem parse_pathUri (uri : PathUri) : parse uri.format = uri.parsed := by
  simp [parse, PathUri.format, consumeProtocol_append uri.protocol_colon,
    consumeHostAndPort_path uri.rest_start, consumePath, PathUri.parsed]

/-- **Which URIs are read back.**  With a host or a port only those without a path; without
either, written behind one colon, all whose path does not start with two slashes. -/
theorem parse_format_iff (uri : Uri) (pathUri : PathUri) :
    (parse uri.format = uri.parsed ↔ uri.path = []) ∧
      parse pathUri.format = pathUri.parsed := by
  refine ⟨⟨fun h => ?_, parse_of_path_nil⟩, parse_pathUri pathUri⟩
  rcases uri.path_start with hnil | hslash
  · exact hnil
  · obtain ⟨rest, hrest⟩ := List.head?_eq_some_iff.1 hslash
    exact absurd (congrArg NaiveURIParser.path h) (path_parse_ne hrest)

/-- `tcp://host/run/socket`. -/
def hostAndPath : Uri where
  protocol := "tcp".toList
  host := "host".toList
  port := none
  path := "/run/socket".toList
  protocol_colon := by decide
  host_slash := by decide
  host_colon := by decide
  port_slash := by simp
  path_start := by decide
  nonempty := by decide

/-- The host is read with the first two characters of the path, and the path not at all. -/
theorem not_parse_format : ¬((∀ uri : Uri, parse uri.format = uri.parsed) ∧
    ∀ uri : PathUri, parse uri.format = uri.parsed) := by
  rintro ⟨h, -⟩
  have hread : parse hostAndPath.format =
      { protocol := "tcp".toList, host := "host/r".toList } := by
    decide
  rw [h hostAndPath] at hread
  revert hread
  decide

end NaiveURIParser

end NewCPP.Network
