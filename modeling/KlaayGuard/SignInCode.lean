/-
The one-time code of the sign-in, read out of the browser's request line.

The server redirects the browser to a port on this machine, with the code in the query.
The line is cut at its blanks, its target at the first `?`, the query at every `&` and
each part at its first `=`.  The value that stands first behind the key is the code.
-/

import KlaayGuard.Library.QueryText

set_option autoImplicit false

namespace KlaayGuard

open RustText QueryText

/-- Pulls `code` out of `GET /?code=… HTTP/1.1`. -/
def codeFromRequestLine (line : List Char) : Option (List Char) := do
  let target ← (splitWhitespace line)[1]?
  let query := (← splitOnce '?' target).2
  (((query.splitOn '&').filterMap (splitOnce '=')).find?
    fun pair => pair.1 == "code".toList).map Prod.snd |>.filter (· ≠ [])

/-- What follows the first `?` of the second word. -/
def HasQuery (line query : List Char) : Prop :=
  ∃ path, (splitWhitespace line)[1]? = some (path ++ '?' :: query) ∧ '?' ∉ path

theorem HasQuery.unique {line query query' : List Char} (left : HasQuery line query)
    (right : HasQuery line query') : query = query' := by
  obtain ⟨path, second, inPath⟩ := left
  obtain ⟨path', second', inPath'⟩ := right
  rw [second] at second'
  exact (cut_inj inPath inPath' (Option.some.inj second')).2

/-- The code is the first value behind `code` in the query, where that is not empty. -/
theorem codeFromRequestLine_eq_some_iff {line code : List Char} :
    codeFromRequestLine line = some code ↔
      code ≠ [] ∧ ∃ query, HasQuery line query ∧
        FirstValue "code".toList (query.splitOn '&') code := by
  have plain : '=' ∉ "code".toList := by decide
  constructor
  · intro read
    obtain ⟨target, second, ofTarget⟩ := Option.bind_eq_some_iff.mp read
    obtain ⟨⟨path, query⟩, cut, ofQuery⟩ := Option.bind_eq_some_iff.mp ofTarget
    obtain ⟨found, nonempty⟩ := Option.filter_eq_some_iff.mp ofQuery
    obtain ⟨rfl, inPath⟩ := splitOnce_eq_some_iff.mp cut
    exact ⟨of_decide_eq_true nonempty, query, ⟨path, second, inPath⟩,
      (find?_pairs_eq_some_iff plain).mp found⟩
  · rintro ⟨nonempty, query, ⟨path, second, inPath⟩, first⟩
    refine Option.bind_eq_some_iff.mpr ⟨_, second, ?_⟩
    refine Option.bind_eq_some_iff.mpr ⟨_, splitOnce_append inPath query, ?_⟩
    exact Option.filter_eq_some_iff.mpr
      ⟨(find?_pairs_eq_some_iff plain).mpr first, decide_eq_true nonempty⟩

-- An empty code is none, whatever stands behind it.
example : codeFromRequestLine "GET /?code=&code=abc HTTP/1.1\r\n".toList = none := by decide

/-- A request line up to its query: the method token and the path, and what stands behind the
target, where the protocol version and the line ending are. -/
structure RedirectRequest : Type where
  method : List Char
  path : List Char
  version : List Char
  methodNonempty : method ≠ []
  methodToken : ∀ c ∈ method, isWhitespace c = false
  pathPlain : ∀ c ∈ path, c ≠ '?' ∧ isWhitespace c = false

namespace RedirectRequest

def target (request : RedirectRequest) (parameters : List Parameter) : List Char :=
  request.path ++ '?' :: render parameters

def line (request : RedirectRequest) (parameters : List Parameter) : List Char :=
  request.method ++ ' ' :: (request.target parameters ++ ' ' :: request.version)

end RedirectRequest

theorem RedirectRequest.hasQuery_line (request : RedirectRequest) {parameters : List Parameter}
    (wellFormed : ∀ parameter ∈ parameters, parameter.WellFormed) :
    HasQuery (request.line parameters) (render parameters) := by
  have inPath : '?' ∉ request.path := fun member => (request.pathPlain _ member).1 rfl
  have targetWord : ∀ c ∈ request.target parameters, isWhitespace c = false := by
    intro c member
    rcases List.mem_append.mp member with inFront | inBack
    · exact (request.pathPlain c inFront).2
    · rcases List.mem_cons.mp inBack with rfl | inQuery
      · decide
      · exact not_isWhitespace_of_mem_render wellFormed c inQuery
  have targetNonempty : request.target parameters ≠ [] :=
    List.append_ne_nil_of_right_ne_nil _ (List.cons_ne_nil _ _)
  refine ⟨request.path, ?_, inPath⟩
  rw [line, splitWhitespace_append _ _ (by decide),
    splitWhitespace_word request.methodNonempty request.methodToken,
    splitWhitespace_append _ _ (by decide), splitWhitespace_word targetNonempty targetWord]
  rfl

/-- The characters that a URL carries as they are. -/
def isUnreserved (c : Char) : Bool :=
  isAsciiAlphanumeric c || c == '-' || c == '.' || c == '_' || c == '~'

theorem unreserved_plain {c : Char} (unreserved : isUnreserved c = true ∨ c = '=') :
    c ≠ '&' ∧ isWhitespace c = false := by
  rcases unreserved with unreserved | rfl
  · simp only [isUnreserved, Bool.or_eq_true, beq_iff_eq] at unreserved
    rcases unreserved with (((alphanumeric | rfl) | rfl) | rfl) | rfl
    · obtain ⟨low, high, _⟩ := printable_of_isAsciiAlphanumeric alphanumeric
      refine ⟨?_, not_isWhitespace_of_printable (by omega) (by omega)⟩
      rintro rfl
      exact absurd low (by decide)
    all_goals decide
  · decide

theorem wellFormed_code {code : List Char}
    (unreserved : ∀ c ∈ code, isUnreserved c = true ∨ c = '=') :
    (Parameter.pair "code".toList code).WellFormed := by
  have plain : ∀ c ∈ keyed "code".toList code, c ≠ '&' ∧ isWhitespace c = false := by
    intro c member
    rcases List.mem_append.mp member with inKey | inValue
    · have unreservedKey : "code".toList.all isUnreserved = true := by decide
      exact unreserved_plain (Or.inl (List.all_eq_true.mp unreservedKey c inKey))
    · rcases List.mem_cons.mp inValue with rfl | inCode
      · decide
      · exact unreserved_plain (unreserved c inCode)
  have ends : '=' ∉ "code".toList := by decide
  exact
    { nameEnds := ends
      inQuery := fun member => (plain _ member).1 rfl
      inTarget := fun c member => (plain c member).2 }

/-- Whatever else the query says, the code comes back as the server sent it; and a query
without the key yields none. -/
theorem code_survives_redirect :
    (∀ (request : RedirectRequest) (before after : List Parameter) (code : List Char),
      (∀ parameter ∈ before ++ after,
        parameter.WellFormed ∧ parameter.key ≠ some "code".toList) →
      code ≠ [] → (∀ c ∈ code, isUnreserved c = true ∨ c = '=') →
      codeFromRequestLine (request.line (before ++ .pair "code".toList code :: after)) =
        some code) ∧
    ∀ line : List Char,
      (∀ query, HasQuery line query →
        ∀ value, keyed "code".toList value ∉ query.splitOn '&') →
      codeFromRequestLine line = none := by
  constructor
  · intro request before after code others nonempty unreserved
    have wellFormed : ∀ parameter ∈ before ++ .pair "code".toList code :: after,
        parameter.WellFormed := by
      intro parameter member
      rcases List.mem_append.mp member with inFront | inBack
      · exact (others parameter (List.mem_append_left _ inFront)).1
      · rcases List.mem_cons.mp inBack with rfl | inBack
        · exact wellFormed_code unreserved
        · exact (others parameter (List.mem_append_right _ inBack)).1
    refine codeFromRequestLine_eq_some_iff.mpr
      ⟨nonempty, _, request.hasQuery_line wellFormed, ?_⟩
    rw [splitOn_render (by simp) wellFormed, List.map_append, List.map_cons]
    refine FirstValue.append ?_ (.here _ rfl)
    intro part isPart
    obtain ⟨parameter, member, rfl⟩ := List.mem_map.mp isPart
    obtain ⟨plain, other⟩ := others parameter (List.mem_append_left _ member)
    exact plain.text_ne_keyed (by decide) other
  · intro line without
    by_contra read
    obtain ⟨code, read⟩ := Option.ne_none_iff_exists'.mp read
    obtain ⟨_, query, hasQuery, first⟩ := codeFromRequestLine_eq_some_iff.mp read
    exact without query hasQuery code first.mem

def rootRedirect : RedirectRequest where
  method := "GET".toList
  path := ['/']
  version := "HTTP/1.1\r\n".toList
  methodNonempty := by decide
  methodToken := fun c member => by
    have word : "GET".toList.all (fun c => !isWhitespace c) = true := by decide
    simpa using List.all_eq_true.mp word c member
  pathPlain := fun c member => by
    rw [List.mem_singleton.mp member]
    decide

theorem code_survives_redirect_beside_xcode :
    codeFromRequestLine "GET /?xcode=1&code=ab=c&code2 HTTP/1.1\r\n".toList =
      some "ab=c".toList ∧
    codeFromRequestLine "GET /?xcode=1 HTTP/1.1\r\n".toList = none := by
  have plain : '=' ∉ "code".toList := by decide
  have xcode : (Parameter.pair "xcode".toList ['1']).WellFormed := by decide
  have otherKey : (Parameter.pair "xcode".toList ['1']).key ≠ some "code".toList := by decide
  have code2 : (Parameter.bare "code2".toList).WellFormed := by decide
  constructor
  · refine code_survives_redirect.1 rootRedirect [.pair "xcode".toList ['1']]
      [.bare "code2".toList] "ab=c".toList ?_ (by decide) ?_
    · intro parameter member
      rcases List.mem_cons.mp member with rfl | member
      · exact ⟨xcode, otherKey⟩
      · rw [List.mem_singleton.mp member]
        exact ⟨code2, nofun⟩
    · have unreserved : "ab=c".toList.all (fun c => isUnreserved c || c == '=') = true := by
        decide
      intro c member
      simpa using List.all_eq_true.mp unreserved c member
  · refine code_survives_redirect.2 _ ?_
    intro query hasQuery value isPart
    have wellFormed : ∀ parameter ∈ [Parameter.pair "xcode".toList ['1']],
        parameter.WellFormed := by
      intro parameter member
      exact List.mem_singleton.mp member ▸ xcode
    have sent := rootRedirect.hasQuery_line wellFormed
    rw [HasQuery.unique hasQuery sent, splitOn_render (List.cons_ne_nil _ _) wellFormed]
      at isPart
    exact xcode.text_ne_keyed plain otherKey value (List.mem_singleton.mp isPart).symm

end KlaayGuard
