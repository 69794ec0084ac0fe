import FlightPulse.Lib.Strings
import FlightPulse.Lib.Url
import FlightPulse.LoadBalancer.Server
import Mathlib.Data.List.Perm.Basic
import Mathlib.Data.List.Nodup

/-!
# What a client and a backend see of each other

The proxy hands a URL, a dictionary of parameters and a dictionary of headers to
`requests`, and copies what `requests` makes of the response. The library itself
is a parameter, with what its documentation says about it.
-/

open Lib Lib.Python Lib.Url

namespace FlightPulse.LoadBalancer.Transparency

/-- Names of headers are compared without their case. -/
def name (h : PyStr × PyStr) : PyStr := lower h.1

def endToEnd (hopByHop : List PyStr) (hs : List (PyStr × PyStr)) : List (PyStr × PyStr) :=
  hs.filter fun h => name h ∉ hopByHop

/-- The header, and no other of its name. -/
def Once (h : PyStr × PyStr) (hs : List (PyStr × PyStr)) : Prop := (hs.filter fun g => name g = name h) = [h]

def codings (hs : List (PyStr × PyStr)) : List PyStr :=
  (hs.filter fun h => name h = str "content-encoding").map Prod.snd

/-! ## Requests -/

def isScalar (c : CodePoint) : Bool := !isHigh c.val && !isLow c.val

def isTokenChar (c : CodePoint) : Bool :=
  isOneOf "!#$%&'*+-.^_`|~0123456789abcdefghijklmnopqrstuvwxyz" c

def isFieldChar (c : CodePoint) : Bool := c.val = 9 || (0x20 ≤ c.val && c.val ≤ 0xFF && c.val ≠ 0x7F)

def isBlank (c : CodePoint) : Bool := c.val = 9 || c.val = 0x20

/-- A header as a server reads it: a token in lower case, and a value without blanks around it. -/
def isFieldLine (h : PyStr × PyStr) : Bool :=
  h.1 ≠ [] && h.1.all isTokenChar && h.2.all isFieldChar && !h.2.head?.any isBlank && !h.2.getLast?.any isBlank

/-- A server takes no other request with a `Transfer-Encoding`: it could not tell where the body ends. -/
def isFramed (h : PyStr × PyStr) : Bool := name h ≠ str "transfer-encoding" || str "chunked" <:+ lower h.2

/-- A request as the server hands it to the application: the path and the query were read as UTF-8. -/
structure ClientRequest extends Request where
  path_scalar : ∀ c ∈ fullPath, isScalar c
  query_scalar : ∀ p ∈ queryParams, ∀ c ∈ p.1 ++ p.2, isScalar c
  headers_line : ∀ h ∈ headers, isFieldLine h
  headers_framed : ∀ h ∈ headers, isFramed h

/-- A request as the backend reads it. -/
structure Received where
  method : Method
  path : PyStr
  queryParams : List (PyStr × PyStr)
  headers : List (PyStr × PyStr)
  body : Bytes

/-- No Content and Not Modified have no body. -/
def bodiless (statusCode : ℕ) : Bool := statusCode = 204 || statusCode = 304

/-- A response as the backend sends it. -/
structure WireResponse where
  statusCode : ℕ
  headers : List (PyStr × PyStr)
  body : Bytes
  final : 200 ≤ statusCode
  empty : bodiless statusCode → body = []

/-! ## The library -/

/-- No `InvalidHeader` for whitespace at the beginning, and not the value for which urllib3 sends nothing. -/
def isSendable (h : PyStr × PyStr) : Bool :=
  !h.2.head?.any isSpace && h.2 ≠ str "@@@SKIP_HEADER@@@"

/-- The path goes out as another one, with or without escapes. -/
def IsRewritten (path : PyStr) : Prop := HasDotSegment path ∨ str "//" <+: path

def isChunked (headers : List (PyStr × PyStr)) : Bool := headers.any fun h => name h = str "transfer-encoding"

def redirectStati : List ℕ := [301, 302, 303, 307, 308]

/-- An empty `Location` leads nowhere. -/
def isRedirect (statusCode : ℕ) (headers : List (PyStr × PyStr)) : Bool :=
  statusCode ∈ redirectStati && headers.any fun h => name h = str "location" && h.2 ≠ []

structure Requests where
  /-- `requests.utils.default_headers()`. -/
  defaultHeaders : List (PyStr × PyStr)
  /-- `none` when an exception is raised instead. -/
  sentHeaders : Dict PyStr PyStr → Option (List (PyStr × PyStr))
  /-- The request line has this for the path of a URL. -/
  target : PyStr → PyStr
  /-- What a server reads of the body; `none` when it refuses the request or waits for the end in vain. -/
  readBody : OutgoingRequest → Option Bytes
  /-- `resp.headers`. -/
  headerMap : List (PyStr × PyStr) → Dict PyStr PyStr
  /-- The content of a body with these values of `Content-Encoding`. -/
  decode : List PyStr → Bytes → Option Bytes
  /-- Where the redirects of a response end. -/
  redirected : WireResponse → ForwardResult

namespace Requests

def received (lib : Requests) (out : OutgoingRequest) : Option Received :=
  (lib.sentHeaders out.headers).bind fun headers =>
    (lib.readBody out).map fun body =>
      { method := out.method
        path := unquote (lib.target (path out.url))
        queryParams := parseQsl (query out.url) ++ out.params.entries
        headers := headers
        body := body }

def content (lib : Requests) (hs : List (PyStr × PyStr)) (body : Bytes) : Option Bytes :=
  lib.decode (codings hs) body

def returned (lib : Requests) (w : WireResponse) : ForwardResult :=
  if isRedirect w.statusCode (lib.headerMap w.headers).entries then lib.redirected w
  else match lib.content w.headers w.body with
    | none => .requestException .contentDecodingError
    | some content => .response ⟨w.statusCode, lib.headerMap w.headers, content⟩

/-- As `requests` 2.32 with `urllib3` 2 does it, without a proxy and without credentials in `.netrc`. -/
structure Documented (lib : Requests) : Prop where
  sent_some : ∀ d, (∀ h ∈ d.entries, isFieldLine h ∧ isSendable h) → (lib.sentHeaders d).isSome
  /-- A header that is given once goes out as it is, in the place of the default one. -/
  sent_given : ∀ d hs, lib.sentHeaders d = some hs → ∀ h, isFieldLine h → isSendable h → Once h d.entries →
    name h ∉ hopByHopRequestHeaders → h ∈ hs
  sent_refused : ∀ d hs, lib.sentHeaders d = some hs → ∀ h ∈ d.entries, isSendable h = false → h ∉ hs
  sent_default : ∀ d hs, lib.sentHeaders d = some hs → (∀ h ∈ d.entries, isSendable h) →
    ∀ h ∈ lib.defaultHeaders, name h ∈ hs.map name
  sent_name : ∀ d hs, lib.sentHeaders d = some hs → ∀ h ∈ hs, name h ∈ hopByHopRequestHeaders ∨
    name h ∈ d.entries.map name ∨ name h ∈ lib.defaultHeaders.map name
  sent_distinct : ∀ d hs, lib.sentHeaders d = some hs → (hs.map name).Nodup
  /-- Dot segments are resolved, and slashes at the beginning become one. -/
  target_shorter : ∀ p, (∀ c ∈ p, isScalar c) → IsRewritten (ofChar '/' :: p) →
    (unquote (lib.target (ofChar '/' :: p))).length < p.length + 1
  /-- A path with a stray `%` is taken to have no escapes. -/
  target_read : ∀ p, (∀ c ∈ p, isScalar c) → ¬ IsRewritten (ofChar '/' :: p) →
    unquote (lib.target (ofChar '/' :: p)) =
      if isPercentEncoded (ofChar '/' :: p) then unquote (ofChar '/' :: p) else ofChar '/' :: p
  /-- A body goes out plain, and only an empty one without a `Content-Length` is ended as chunks are. -/
  read_iff : ∀ out, (∀ h ∈ out.headers.entries, isFramed h) → (lib.readBody out = some out.data ↔
    (isChunked out.headers.entries → out.method = .get ∧ out.data = []))
  map_once : ∀ hs h, Once h hs → h ∈ (lib.headerMap hs).entries
  map_name : ∀ hs, ∀ h ∈ (lib.headerMap hs).entries, name h ∈ hs.map name
  map_distinct : ∀ hs, ((lib.headerMap hs).entries.map name).Nodup
  decode_nil : ∀ body, lib.decode [] body = some body
  redirected_final : ∀ w r, lib.redirected w = .response r → isRedirect r.statusCode r.headers.entries = false
  redirected_distinct : ∀ w r, lib.redirected w = .response r → (r.headers.entries.map name).Nodup

end Requests

/-! ## The two directions -/

/-- The path of the client's URL, decoded. -/
def clientPath (req : Request) : PyStr := ofChar '/' :: req.fullPath

structure Received.Same (r : Received) (req : Request) : Prop where
  method : r.method = req.method
  body : r.body = req.body
  path : r.path = clientPath req
  queryParams : r.queryParams = req.queryParams
  headers : (endToEnd hopByHopRequestHeaders r.headers).Perm (endToEnd hopByHopRequestHeaders req.headers)

/-- The backend reads the request of the client. -/
def SameRequest (lib : Requests) (base : Url) (req : Request) : Prop :=
  ∃ r, lib.received (forwardOnce req base) = some r ∧ r.Same req

/-- The client gets the status, the content and the headers of what the backend sent. -/
def SameResponse (lib : Requests) (w : WireResponse) : Prop :=
  ∃ r content, lib.returned w = .response r ∧ lib.content w.headers w.body = some content ∧
    (relay r).statusCode = w.statusCode ∧
    lib.content (relay r).headers.entries (relay r).content = some content ∧
    (endToEnd hopByHopResponseHeaders (relay r).headers.entries).Perm
      (endToEnd hopByHopResponseHeaders w.headers)

structure PlainRequest (lib : Requests) (req : Request) : Prop where
  delimiters : ∀ c ∈ req.fullPath, isOneOf "?#" c = false
  /-- It has no escape, or a `%` that begins none. -/
  escapes : ¬ (HasEscape (clientPath req) ∧ isPercentEncoded (clientPath req))
  segments : ¬ IsRewritten (clientPath req)
  queryNames : (req.queryParams.map Prod.fst).Nodup
  headerNames : ((endToEnd hopByHopRequestHeaders req.headers).map name).Nodup
  headerValues : ∀ h ∈ endToEnd hopByHopRequestHeaders req.headers, isSendable h
  chunks : isChunked req.headers → req.method = .get ∧ req.body = []
  defaults : ∀ h ∈ lib.defaultHeaders, name h ∈ hopByHopRequestHeaders ∨
    name h ∈ (endToEnd hopByHopRequestHeaders req.headers).map name

structure PlainResponse (lib : Requests) (w : WireResponse) : Prop where
  final : isRedirect w.statusCode w.headers = false
  /-- The content stays the same when it is decoded once more. -/
  content : ∃ content, lib.content w.headers w.body = some content ∧ lib.content w.headers content = some content
  headerNames : ((endToEnd hopByHopResponseHeaders w.headers).map name).Nodup

/-! ## Lists of headers -/

theorem mem_endToEnd {hop : List PyStr} {hs : List (PyStr × PyStr)} {h : PyStr × PyStr} :
    h ∈ endToEnd hop hs ↔ h ∈ hs ∧ name h ∉ hop := by
  unfold endToEnd
  simp

theorem endToEnd_distinct {hop : List PyStr} {hs : List (PyStr × PyStr)} (h : (hs.map name).Nodup) :
    ((endToEnd hop hs).map name).Nodup :=
  h.sublist (List.filter_sublist.map name)

theorem keys_distinct {hs : List (PyStr × PyStr)} (h : (hs.map name).Nodup) : (hs.map Prod.fst).Nodup := by
  apply List.Nodup.of_map lower
  rw [List.map_map]
  exact h

theorem once_of_distinct {hs : List (PyStr × PyStr)} (hnodup : (hs.map name).Nodup) {h : PyStr × PyStr}
    (hmem : h ∈ hs) : Once h hs := by
  induction hs with
  | nil => simp at hmem
  | cons g hs ih =>
    rw [List.map_cons, List.nodup_cons] at hnodup
    unfold Once
    rcases List.mem_cons.mp hmem with rfl | hmem
    · have hnone : (hs.filter fun g => name g = name h) = [] := by
        rw [List.filter_eq_nil_iff]
        intro g hg hgh
        exact hnodup.1 (List.mem_map.mpr ⟨g, hg, by simpa using hgh⟩)
      rw [List.filter_cons_of_pos (by simp), hnone]
    · have hne : name g ≠ name h := by
        intro heq
        exact hnodup.1 (List.mem_map.mpr ⟨h, hmem, heq.symm⟩)
      rw [List.filter_cons_of_neg (by simp [hne])]
      exact ih hnodup.2 hmem

theorem once_endToEnd {hop : List PyStr} {hs : List (PyStr × PyStr)} {h : PyStr × PyStr} (hh : name h ∉ hop) :
    Once h (endToEnd hop hs) ↔ Once h hs := by
  have hfilter : ((endToEnd hop hs).filter fun g => name g = name h) = hs.filter fun g => name g = name h := by
    unfold endToEnd
    rw [List.filter_filter]
    refine List.filter_congr fun g _ => ?_
    by_cases hg : name g = name h <;> simp [hg, hh]
  unfold Once
  rw [hfilter]

theorem perm_of_names {as bs : List (PyStr × PyStr)} (has : (as.map name).Nodup) (hbs : (bs.map name).Nodup)
    (hsub : ∀ h ∈ bs, h ∈ as) (hnames : ∀ h ∈ as, name h ∈ bs.map name) : as.Perm bs := by
  rw [List.perm_ext_iff_of_nodup has.of_map hbs.of_map]
  intro h
  refine ⟨fun hmem => ?_, hsub h⟩
  obtain ⟨g, hg, heq⟩ := List.mem_map.mp (hnames h hmem)
  obtain rfl := List.inj_on_of_nodup_map has (hsub g hg) hmem heq
  exact hg

theorem entries_filterHeaders {dropped : List PyStr} {items : List (PyStr × PyStr)}
    (h : ((endToEnd dropped items).map name).Nodup) :
    (filterHeaders dropped items).entries = endToEnd dropped items :=
  Dict.entries_ofPairs (keys_distinct h)

theorem isChunked_endToEnd (hs : List (PyStr × PyStr)) :
    isChunked (endToEnd hopByHopRequestHeaders hs) = isChunked hs := by
  unfold isChunked endToEnd
  rw [List.any_filter]
  congr 1
  funext h
  by_cases hh : name h = str "transfer-encoding"
  · have hkept : str "transfer-encoding" ∉ hopByHopRequestHeaders := by decide
    simp [hh, hkept]
  · simp [hh]

theorem codings_endToEnd (hs : List (PyStr × PyStr)) :
    codings (endToEnd hopByHopResponseHeaders hs) = codings hs := by
  unfold codings endToEnd
  rw [List.filter_filter]
  congr 1
  refine List.filter_congr fun h _ => ?_
  by_cases hh : name h = str "content-encoding"
  · have hkept : str "content-encoding" ∉ hopByHopResponseHeaders := by decide
    simp [hh, hkept]
  · simp [hh]

theorem codings_perm {as bs : List (PyStr × PyStr)} (h : as.Perm bs) (has : (as.map name).Nodup) :
    codings as = codings bs := by
  have hperm : (codings as).Perm (codings bs) := (h.filter _).map _
  have hlen : (codings as).length ≤ 1 := by
    unfold codings
    rw [List.length_map]
    cases hcod : as.filter fun g => name g = str "content-encoding" with
    | nil => simp
    | cons g gs =>
      have hmem : g ∈ as.filter fun g => name g = str "content-encoding" := hcod ▸ List.mem_cons_self
      have hg := List.mem_filter.mp hmem
      have honce := once_of_distinct has hg.1
      unfold Once at honce
      rw [of_decide_eq_true hg.2, hcod] at honce
      rw [honce]
      simp
  match hc : codings as, hlen with
  | [], _ =>
    rw [hc] at hperm
    exact (List.nil_perm.mp hperm).symm
  | [c], _ =>
    rw [hc] at hperm
    exact (List.singleton_perm.mp hperm).symm ▸ rfl

/-! ## The request -/

section

variable {lib : Requests} (hlib : lib.Documented)
include hlib

theorem path_iff {base : Url} (hbase : IsOrigin base) (req : ClientRequest) :
    unquote (lib.target (path (forwardOnce req.toRequest base).url)) = clientPath req.toRequest ↔
      (∀ c ∈ req.fullPath, isOneOf "?#" c = false) ∧
        ¬ (HasEscape (clientPath req.toRequest) ∧ isPercentEncoded (clientPath req.toRequest)) ∧
        ¬ IsRewritten (clientPath req.toRequest) := by
  have hpath : path (forwardOnce req.toRequest base).url =
      ofChar '/' :: req.fullPath.takeWhile fun c => !isOneOf "?#" c := path_origin hbase _
  rw [hpath]
  unfold clientPath
  constructor
  · intro h
    -- No step makes the path longer, so each of them left it alone.
    generalize hcut : req.fullPath.takeWhile (fun c => !isOneOf "?#" c) = cut at h
    have hstart : cut <+: req.fullPath := hcut ▸ List.takeWhile_prefix _
    have hscalar : ∀ c ∈ cut, isScalar c := fun c hc => req.path_scalar c (hstart.subset hc)
    have hlen := congrArg List.length h
    have hcutlen := hstart.length_le
    have hsegments : ¬ IsRewritten (ofChar '/' :: cut) := by
      intro hrewritten
      have hshorter := hlib.target_shorter cut hscalar hrewritten
      simp only [List.length_cons] at hlen
      omega
    have hread := hlib.target_read cut hscalar hsegments
    have hunquote := length_unquote_le (ofChar '/' :: cut)
    have hwhole : cut = req.fullPath := by
      apply hstart.eq_of_length
      rw [hread] at hlen
      split_ifs at hlen
      · simp only [List.length_cons] at hunquote hlen
        omega
      · simpa using hlen
    rw [← hwhole] at h ⊢
    refine ⟨fun c hc => ?_, fun ⟨hesc, henc⟩ => ?_, hsegments⟩
    · rw [hwhole] at hcut hc
      simpa using List.takeWhile_eq_self_iff.mp hcut c hc
    · rw [hread, if_pos henc] at h
      exact (unquote_eq_self_iff _).mp h hesc
  · rintro ⟨hdelim, hesc, hsegments⟩
    have hwhole : req.fullPath.takeWhile (fun c => !isOneOf "?#" c) = req.fullPath :=
      List.takeWhile_eq_self_iff.mpr (by simpa using hdelim)
    rw [hwhole, hlib.target_read _ req.path_scalar hsegments]
    split_ifs with henc
    · exact (unquote_eq_self_iff _).mpr fun h => hesc ⟨h, henc⟩
    · rfl

omit hlib in
theorem queryParams_iff {base : Url} (hbase : IsOrigin base) {req : Request}
    (hdelim : ∀ c ∈ req.fullPath, isOneOf "?#" c = false) :
    parseQsl (query (forwardOnce req base).url) ++ (forwardOnce req base).params.entries = req.queryParams ↔
      (req.queryParams.map Prod.fst).Nodup := by
  have hquery : query (forwardOnce req base).url = [] := query_origin hbase hdelim
  rw [hquery]
  exact Dict.entries_ofPairs_iff

/-- The headers that requests sends, when it sends any, are those of the client. -/
def HeadersArrive (lib : Requests) (req : Request) : Prop :=
  ∃ hs, lib.sentHeaders (forwardHeaders req) = some hs ∧
    (endToEnd hopByHopRequestHeaders hs).Perm (endToEnd hopByHopRequestHeaders req.headers)

theorem headers_iff (req : ClientRequest) :
    HeadersArrive lib req.toRequest ↔
      ((endToEnd hopByHopRequestHeaders req.headers).map name).Nodup ∧
      (∀ h ∈ endToEnd hopByHopRequestHeaders req.headers, isSendable h) ∧
      ∀ h ∈ lib.defaultHeaders, name h ∈ hopByHopRequestHeaders ∨
        name h ∈ (endToEnd hopByHopRequestHeaders req.headers).map name := by
  have hline : ∀ h ∈ endToEnd hopByHopRequestHeaders req.headers, isFieldLine h :=
    fun h hmem => req.headers_line h (mem_endToEnd.mp hmem).1
  constructor
  · rintro ⟨hs, hsent, hperm⟩
    have hnames := hperm.map name
    have hdistinct := hnames.nodup_iff.mp (endToEnd_distinct (hlib.sent_distinct _ hs hsent))
    have hentries : (forwardHeaders req.toRequest).entries = endToEnd hopByHopRequestHeaders req.headers :=
      entries_filterHeaders hdistinct
    have hvalues : ∀ h ∈ endToEnd hopByHopRequestHeaders req.headers, isSendable h := by
      intro h hmem
      by_contra hvalue
      refine hlib.sent_refused _ hs hsent h (hentries ▸ hmem) (by simpa using hvalue) ?_
      exact (mem_endToEnd.mp (hperm.mem_iff.mpr hmem)).1
    refine ⟨hdistinct, hvalues, fun d hd => ?_⟩
    by_cases hop : name d ∈ hopByHopRequestHeaders
    · exact Or.inl hop
    · right
      obtain ⟨g, hg, heq⟩ := List.mem_map.mp (hlib.sent_default _ hs hsent (hentries ▸ hvalues) d hd)
      rw [← hnames.mem_iff, List.mem_map]
      exact ⟨g, mem_endToEnd.mpr ⟨hg, heq ▸ hop⟩, heq⟩
  · rintro ⟨hdistinct, hvalues, hdefaults⟩
    have hentries : (forwardHeaders req.toRequest).entries = endToEnd hopByHopRequestHeaders req.headers :=
      entries_filterHeaders hdistinct
    obtain ⟨hs, hsent⟩ := Option.isSome_iff_exists.mp (hlib.sent_some (forwardHeaders req.toRequest)
      (hentries ▸ fun h hmem => ⟨hline h hmem, hvalues h hmem⟩))
    refine ⟨hs, hsent, perm_of_names (endToEnd_distinct (hlib.sent_distinct _ hs hsent)) hdistinct
      (fun h hmem => ?_) (fun h hmem => ?_)⟩
    · have hop := (mem_endToEnd.mp hmem).2
      refine mem_endToEnd.mpr ⟨hlib.sent_given _ hs hsent h (hline h hmem) (hvalues h hmem) ?_ hop, hop⟩
      rw [hentries]
      exact once_of_distinct hdistinct hmem
    · obtain ⟨hmem, hop⟩ := mem_endToEnd.mp hmem
      rcases hlib.sent_name _ hs hsent h hmem with h' | h' | h'
      · exact absurd h' hop
      · rwa [hentries] at h'
      · obtain ⟨d, hd, heq⟩ := List.mem_map.mp h'
        rcases hdefaults d hd with h'' | h''
        · exact absurd (heq ▸ h'') hop
        · exact heq ▸ h''

theorem body_iff (base : Url) {req : ClientRequest}
    (hdistinct : ((endToEnd hopByHopRequestHeaders req.headers).map name).Nodup) :
    lib.readBody (forwardOnce req.toRequest base) = some req.body ↔
      (isChunked req.headers → req.method = .get ∧ req.body = []) := by
  have hentries : (forwardOnce req.toRequest base).headers.entries =
      endToEnd hopByHopRequestHeaders req.headers := entries_filterHeaders hdistinct
  have hread := hlib.read_iff (forwardOnce req.toRequest base)
  rw [hentries, isChunked_endToEnd] at hread
  exact hread fun h hmem => req.headers_framed h (mem_endToEnd.mp hmem).1

theorem sameRequest_iff {base : Url} (hbase : IsOrigin base) (req : ClientRequest) :
    SameRequest lib base req.toRequest ↔ PlainRequest lib req.toRequest := by
  constructor
  · rintro ⟨r, hr, hsame⟩
    obtain ⟨hs, hsent, hr⟩ := Option.bind_eq_some_iff.mp hr
    obtain ⟨body, hbody, rfl⟩ := Option.map_eq_some_iff.mp hr
    obtain ⟨hdelim, hesc, hsegments⟩ := (path_iff hlib hbase req).mp hsame.path
    obtain ⟨hnames, hvalues, hdefaults⟩ := (headers_iff hlib req).mp ⟨hs, hsent, hsame.headers⟩
    obtain rfl : body = req.body := hsame.body
    exact ⟨hdelim, hesc, hsegments, (queryParams_iff hbase hdelim).mp hsame.queryParams, hnames, hvalues,
      (body_iff hlib base hnames).mp hbody, hdefaults⟩
  · intro h
    obtain ⟨hs, hsent, hperm⟩ := (headers_iff hlib req).mpr ⟨h.headerNames, h.headerValues, h.defaults⟩
    have hbody := (body_iff hlib base h.headerNames).mpr h.chunks
    refine ⟨_, Option.bind_eq_some_iff.mpr ⟨hs, hsent, Option.map_eq_some_iff.mpr ⟨_, hbody, rfl⟩⟩, rfl, rfl, ?_,
      (queryParams_iff hbase h.delimiters).mpr h.queryNames, hperm⟩
    exact (path_iff hlib hbase req).mpr ⟨h.delimiters, h.escapes, h.segments⟩

/-! ## The response -/

omit hlib in
theorem relay_headers {r : BackendResponse} (h : (r.headers.entries.map name).Nodup) :
    (relay r).headers.entries = endToEnd hopByHopResponseHeaders r.headers.entries :=
  entries_filterHeaders (endToEnd_distinct h)

theorem returned_distinct {w : WireResponse} {r : BackendResponse} (h : lib.returned w = .response r) :
    (r.headers.entries.map name).Nodup := by
  unfold Requests.returned at h
  split_ifs at h with hred
  · exact hlib.redirected_distinct w r h
  · split at h
    · exact absurd h (by simp)
    · simp only [ForwardResult.response.injEq] at h
      subst h
      exact hlib.map_distinct _

theorem relayed_perm_iff (w : WireResponse) :
    (endToEnd hopByHopResponseHeaders (endToEnd hopByHopResponseHeaders (lib.headerMap w.headers).entries)).Perm
        (endToEnd hopByHopResponseHeaders w.headers) ↔
      ((endToEnd hopByHopResponseHeaders w.headers).map name).Nodup := by
  have hmap : ((endToEnd hopByHopResponseHeaders (endToEnd hopByHopResponseHeaders
      (lib.headerMap w.headers).entries)).map name).Nodup :=
    endToEnd_distinct (endToEnd_distinct (hlib.map_distinct _))
  constructor
  · intro h
    exact (h.map name).nodup_iff.mp hmap
  · intro hdistinct
    refine perm_of_names hmap hdistinct (fun h hmem => ?_) (fun h hmem => ?_)
    · have hop := (mem_endToEnd.mp hmem).2
      have honce := (once_endToEnd hop).mp (once_of_distinct hdistinct hmem)
      exact mem_endToEnd.mpr ⟨mem_endToEnd.mpr ⟨hlib.map_once _ h honce, hop⟩, hop⟩
    · obtain ⟨hmem, hop⟩ := mem_endToEnd.mp hmem
      obtain ⟨g, hg, heq⟩ := List.mem_map.mp (hlib.map_name _ h (mem_endToEnd.mp hmem).1)
      exact List.mem_map.mpr ⟨g, mem_endToEnd.mpr ⟨hg, heq ▸ hop⟩, heq⟩

theorem relayed_codings {w : WireResponse}
    (hdistinct : ((endToEnd hopByHopResponseHeaders w.headers).map name).Nodup) :
    codings (endToEnd hopByHopResponseHeaders (lib.headerMap w.headers).entries) = codings w.headers := by
  have hperm := (relayed_perm_iff hlib w).mpr hdistinct
  rw [← codings_endToEnd, ← codings_endToEnd w.headers]
  exact codings_perm hperm ((hperm.map name).nodup_iff.mpr hdistinct)

theorem isRedirect_headerMap {w : WireResponse}
    (hdistinct : ((endToEnd hopByHopResponseHeaders w.headers).map name).Nodup) :
    isRedirect w.statusCode (lib.headerMap w.headers).entries = isRedirect w.statusCode w.headers := by
  have hperm := (relayed_perm_iff hlib w).mpr hdistinct
  have hmem : ∀ h, name h = str "location" → (h ∈ (lib.headerMap w.headers).entries ↔ h ∈ w.headers) := by
    intro h hname
    have hop : name h ∉ hopByHopResponseHeaders := by
      rw [hname]
      decide
    have hiff := hperm.mem_iff (a := h)
    simpa [mem_endToEnd, hop] using hiff
  have hname : ∀ h : PyStr × PyStr, (name h = str "location" && h.2 ≠ []) → name h = str "location" := by
    intro h hloc
    rw [Bool.and_eq_true] at hloc
    exact of_decide_eq_true hloc.1
  unfold isRedirect
  congr 1
  rw [Bool.eq_iff_iff, List.any_eq_true, List.any_eq_true]
  constructor
  · rintro ⟨h, hh, hloc⟩
    exact ⟨h, (hmem h (hname h hloc)).mp hh, hloc⟩
  · rintro ⟨h, hh, hloc⟩
    exact ⟨h, (hmem h (hname h hloc)).mpr hh, hloc⟩

/-- What a redirect ends in is no redirect, so its status or its headers are others. -/
theorem redirected_differs {w : WireResponse} {r : BackendResponse}
    (hred : isRedirect w.statusCode w.headers = true) (hr : lib.redirected w = .response r)
    (hstatus : r.statusCode = w.statusCode) :
    ¬ (endToEnd hopByHopResponseHeaders (relay r).headers.entries).Perm
      (endToEnd hopByHopResponseHeaders w.headers) := by
  intro hheaders
  have hfinal := hlib.redirected_final w r hr
  unfold isRedirect at hred hfinal
  rw [Bool.and_eq_true, List.any_eq_true] at hred
  obtain ⟨hcode, h, hmem, hloc⟩ := hred
  rw [hstatus, hcode, Bool.true_and, List.any_eq_false] at hfinal
  have hop : name h ∉ hopByHopResponseHeaders := by
    rw [Bool.and_eq_true] at hloc
    rw [of_decide_eq_true hloc.1]
    decide
  have hout := (hheaders.mem_iff).mpr (mem_endToEnd.mpr ⟨hmem, hop⟩)
  rw [relay_headers (hlib.redirected_distinct w r hr)] at hout
  have hset := (mem_endToEnd.mp (mem_endToEnd.mp hout).1).1
  exact hfinal h hset hloc

theorem sameResponse_iff (w : WireResponse) : SameResponse lib w ↔ PlainResponse lib w := by
  constructor
  · rintro ⟨r, content, hr, hc, hstatus, hbody, hheaders⟩
    have hnames := returned_distinct hlib hr
    have hdistinct : ((endToEnd hopByHopResponseHeaders w.headers).map name).Nodup := by
      refine (hheaders.map name).nodup_iff.mp ?_
      rw [relay_headers hnames]
      exact endToEnd_distinct (endToEnd_distinct hnames)
    unfold Requests.returned at hr
    rw [isRedirect_headerMap hlib hdistinct] at hr
    cases hred : isRedirect w.statusCode w.headers with
    | true =>
      rw [if_pos hred] at hr
      exact absurd hheaders (redirected_differs hlib hred hr hstatus)
    | false =>
      rw [if_neg (by simp [hred]), hc] at hr
      simp only [ForwardResult.response.injEq] at hr
      subst hr
      rw [relay_headers hnames] at hbody
      unfold Requests.content at hbody
      rw [relayed_codings hlib hdistinct] at hbody
      exact ⟨hred, ⟨content, hc, hbody⟩, hdistinct⟩
  · rintro ⟨hred, ⟨content, hc, hagain⟩, hdistinct⟩
    have hnames := hlib.map_distinct w.headers
    refine ⟨⟨w.statusCode, lib.headerMap w.headers, content⟩, content, ?_, hc, rfl, ?_, ?_⟩
    · unfold Requests.returned
      rw [isRedirect_headerMap hlib hdistinct, if_neg (by simp [hred]), hc]
    · rw [relay_headers hnames]
      unfold Requests.content
      rw [relayed_codings hlib hdistinct]
      exact hagain
    · rw [relay_headers hnames]
      exact (relayed_perm_iff hlib w).mpr hdistinct

end

def agentHeaders : List (PyStr × PyStr) :=
  [(str "User-Agent", str "python-requests/2.32.3"), (str "Accept-Encoding", str "gzip, deflate"),
    (str "Accept", str "*/*"), (str "Connection", str "keep-alive")]

instance decidableOnce (hs : List (PyStr × PyStr)) (h : PyStr × PyStr) : Decidable (Once h hs) :=
  inferInstanceAs (Decidable (_ = _))

instance decidableDotSegment (path : PyStr) : Decidable (HasDotSegment path) :=
  inferInstanceAs (Decidable (∃ segment ∈ _, _))

instance decidableRewritten (path : PyStr) : Decidable (IsRewritten path) :=
  inferInstanceAs (Decidable (_ ∨ _))

def single (hs : List (PyStr × PyStr)) : List (PyStr × PyStr) := hs.filter fun h => Once h hs

theorem mem_single {hs : List (PyStr × PyStr)} {h : PyStr × PyStr} : h ∈ single hs ↔ h ∈ hs ∧ Once h hs := by
  unfold single
  simp

theorem mem_of_once {hs : List (PyStr × PyStr)} {h : PyStr × PyStr} (honce : Once h hs) : h ∈ single hs := by
  refine mem_single.mpr ⟨?_, honce⟩
  have hmem : h ∈ hs.filter fun g => name g = name h := by
    unfold Once at honce
    rw [honce]
    exact List.mem_singleton_self h
  exact List.mem_of_mem_filter hmem

theorem single_distinct (hs : List (PyStr × PyStr)) : ((single hs).map name).Nodup := by
  rw [List.nodup_iff_count_le_one]
  intro n
  by_contra hcount
  have hmem : n ∈ (single hs).map name := List.count_pos_iff.mp (by omega)
  obtain ⟨h, hh, rfl⟩ := List.mem_map.mp hmem
  obtain ⟨-, honce⟩ := mem_single.mp hh
  have hsub : ((single hs).filter fun g => name g = name h).length ≤ 1 := by
    have hle := ((List.filter_sublist (p := fun g => decide (Once g hs)) (l := hs)).filter
      fun g => name g = name h).length_le
    unfold Once at honce
    rw [honce] at hle
    exact hle
  rw [List.count_eq_countP, List.countP_map, List.countP_eq_length_filter] at hcount
  refine hcount ((le_of_eq ?_).trans hsub)
  congr 2
  funext g
  exact beq_eq_decide _ _

/-- The two characters of an empty object, compressed. -/
def gzipped : Bytes :=
  [31, 139, 8, 0, 0, 0, 0, 0, 2, 3, 171, 174, 5, 0, 67, 191, 166, 163, 2, 0, 0, 0]

def sentOf (d : Dict PyStr PyStr) : List (PyStr × PyStr) :=
  agentHeaders.filter (fun h => name h ∉ (single d.entries).map name) ++ single d.entries

theorem sentOf_distinct (d : Dict PyStr PyStr) : ((sentOf d).map name).Nodup := by
  have hdefault : (agentHeaders.map name).Nodup := by decide
  have hfilter := hdefault.sublist ((List.filter_sublist
    (p := fun h => decide (name h ∉ (single d.entries).map name)) (l := agentHeaders)).map name)
  unfold sentOf
  rw [List.map_append]
  refine List.nodup_append.mpr ⟨hfilter, single_distinct _, fun n hn m hm => ?_⟩
  obtain ⟨h, hh, rfl⟩ := List.mem_map.mp hn
  rintro rfl
  exact of_decide_eq_true (List.mem_filter.mp hh).2 hm

/-- For headers that are given once and paths that are not rewritten, what `requests` does. -/
def library : Requests where
  defaultHeaders := agentHeaders
  sentHeaders d := if d.entries.all isSendable then some (sentOf d) else none
  target p := if IsRewritten p then [] else if isPercentEncoded p then p else quotePercent p
  readBody out :=
    if isChunked out.headers.entries → out.method = .get ∧ out.data = [] then some out.data else none
  headerMap hs := ⟨single hs, keys_distinct (single_distinct hs)⟩
  decode encodings body :=
    if encodings = [] then some body
    else if encodings = [str "gzip"] ∧ body = gzipped then some (bytes "\x7b\x7d")
    else none
  redirected _ := .requestException .tooManyRedirects

theorem library_sent {d : Dict PyStr PyStr} {hs : List (PyStr × PyStr)} (h : library.sentHeaders d = some hs) :
    (∀ g ∈ d.entries, isSendable g) ∧ hs = sentOf d := by
  have hsend : (if d.entries.all isSendable then some (sentOf d) else none) = some hs := h
  split_ifs at hsend with hall
  exact ⟨by simpa using hall, (Option.some.inj hsend).symm⟩

theorem library_documented : library.Documented where
  sent_some d h := by
    have hall : d.entries.all isSendable := by
      rw [List.all_eq_true]
      exact fun g hg => (h g hg).2
    rw [show library.sentHeaders d = some (sentOf d) from if_pos hall]
    rfl
  sent_given d hs h g _ _ honce _ := by
    obtain ⟨-, rfl⟩ := library_sent h
    exact List.mem_append_right _ (mem_of_once honce)
  sent_refused d hs h g hg hno := by
    rw [(library_sent h).1 g hg] at hno
    exact absurd hno (by simp)
  sent_default d hs h _ g hg := by
    obtain ⟨-, rfl⟩ := library_sent h
    by_cases hgiven : name g ∈ (single d.entries).map name
    · obtain ⟨k, hk, heq⟩ := List.mem_map.mp hgiven
      exact List.mem_map.mpr ⟨k, List.mem_append_right _ hk, heq⟩
    · exact List.mem_map.mpr ⟨g, List.mem_append_left _ (List.mem_filter.mpr ⟨hg, by simpa using hgiven⟩), rfl⟩
  sent_name d hs h g hg := by
    obtain ⟨-, rfl⟩ := library_sent h
    rcases List.mem_append.mp hg with hg | hg
    · exact Or.inr (Or.inr (List.mem_map_of_mem (List.mem_of_mem_filter hg)))
    · exact Or.inr (Or.inl (List.mem_map_of_mem (mem_single.mp hg).1))
  sent_distinct d hs h := by
    obtain ⟨-, rfl⟩ := library_sent h
    exact sentOf_distinct d
  target_shorter p _ h := by
    rw [show library.target (ofChar '/' :: p) = [] from if_pos h]
    exact Nat.succ_pos _
  target_read p _ h := by
    have htarget : library.target (ofChar '/' :: p) = if isPercentEncoded (ofChar '/' :: p) then ofChar '/' :: p
        else quotePercent (ofChar '/' :: p) := if_neg h
    rw [htarget]
    split_ifs
    · rfl
    · exact unquote_quotePercent _
  read_iff out _ := by
    refine ⟨fun h => ?_, fun h => if_pos h⟩
    by_contra hno
    rw [show library.readBody out = none from if_neg hno] at h
    exact absurd h (by simp)
  map_once hs h honce := mem_of_once honce
  map_name hs h hh := List.mem_map_of_mem (mem_single.mp hh).1
  map_distinct hs := single_distinct hs
  decode_nil body := rfl
  redirected_final w r h := by
    injection h
  redirected_distinct w r h := by
    injection h

def clientHeaders : List (PyStr × PyStr) :=
  [(str "host", str "localhost:8080"), (str "user-agent", str "curl/8.5.0"), (str "accept", str "*/*"),
    (str "accept-encoding", str "identity"), (str "connection", str "close")]

def jsonResponse : WireResponse where
  statusCode := 200
  headers := [(str "Content-Type", str "application/json"), (str "Content-Length", str "2")]
  body := bytes "\x7b\x7d"
  final := by decide
  empty := by decide

def strayPercent : ClientRequest where
  method := .get
  fullPath := str "a%%41"
  headers := clientHeaders
  queryParams := [(str "limit", str "5")]
  body := []
  path_scalar := List.all_eq_true.mp (by decide)
  query_scalar p hp := by
    obtain rfl := List.mem_singleton.mp hp
    exact List.all_eq_true.mp (by decide)
  headers_line := by decide +kernel
  headers_framed := by decide +kernel

theorem localhost_origin : IsOrigin (str "http://localhost:8001") :=
  ⟨str "http", str "localhost:8001", by decide, by decide, none_isOneOf (by decide), none_isOneOf (by decide)⟩

end FlightPulse.LoadBalancer.Transparency
