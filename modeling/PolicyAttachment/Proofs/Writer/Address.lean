import Mathlib.Data.List.TakeWhile
import PolicyAttachment.Writer

/-!
# The addresses of statuses

Namespaces and names become part of an address as they are. Read by its segments, an address leads to
the object that it was made for as long as both are segments themselves, and then it can be sent unless
it is too long: `Uri.sent?_statusUri` and `Uri.statusAt?_statusUri`. Anything else may cut the address
short, lead elsewhere or make it one that cannot be sent.
-/

namespace PolicyAttachment
set_option autoImplicit false

namespace WatchedKind

/-- The name of the collection that objects of this kind live in. -/
def plural : WatchedKind → String
  | service => "services"
  | gateway => "gateways"
  | httpRoute => "httproutes"
  | policy kind => kind.plural

/-- What comes before the namespace in an address. -/
def root : WatchedKind → String
  | service => "/api/v1/namespaces"
  | gateway | httpRoute => "/apis/gateway.networking.k8s.io/v1beta1/namespaces"
  | policy _ => "/apis/networking.gke.io/v1/namespaces"

end WatchedKind

/-- An object as an address names it. -/
structure ObjectAddress where
  apiVersion : String
  plural : String
  ns : String
  name : String
deriving DecidableEq, Repr

namespace Uri

/-- The parts of the path between its slashes. -/
def segments (uri : String) : List String :=
  ((path uri).toList.splitOn '/').map String.ofList

/-- The object whose status is at an address. Only the core group has no name in it. -/
def statusAt? (uri : String) : Option ObjectAddress :=
  match segments uri with
  | ["", "api", version, "namespaces", ns, plural, name, "status"] =>
    some ⟨version, plural, ns, name⟩
  | ["", "apis", group, version, "namespaces", ns, plural, name, "status"] =>
    some ⟨group ++ "/" ++ version, plural, ns, name⟩
  | _ => none

/-- A text that stands for itself as a segment of a path. -/
def IsSegment (s : String) : Prop :=
  s ∉ ["", ".", ".."] ∧ ∀ c ∈ s.toList, isPathCharacter c = true ∧ c ≠ '/' ∧ c ≠ '%'

/-- A segment is neither empty nor a step, and has only characters that stand for themselves. -/
theorem isSegment_iff {s : String} : IsSegment s ↔ ["", ".", ".."].contains s = false ∧
    (s.toList.all fun c => isPathCharacter c && c != '/' && c != '%') = true := by
  simp [IsSegment, and_assoc]

instance (s : String) : Decidable (IsSegment s) := decidable_of_iff' _ isSegment_iff

/-- Where a status is written, with the query of the patch. -/
def statusUri (kind : WatchedKind) (ns name : String) (force : Bool) : String :=
  StatusPatch.collection ns kind ++ name ++ "/status" ++ Request.patchQuery force policyGroup

/-- The path of a status, before the query. -/
def statusPath (kind : WatchedKind) (ns name : String) : List Char :=
  kind.root.toList ++ '/' :: (ns.toList ++ '/' ::
    (kind.plural.toList ++ '/' :: (name.toList ++ '/' :: "status".toList)))

section StatusUri

/-- The address of a collection, as it is put together for a request. -/
theorem collection_eq (kind : WatchedKind) (ns : String) :
    StatusPatch.collection ns kind = kind.root ++ "/" ++ ns ++ ("/" ++ kind.plural ++ "/") := by
  have gateways : "/apis/" ++ WatchedKind.gatewayApiVersion ++ "/namespaces/" =
      "/apis/gateway.networking.k8s.io/v1beta1/namespaces" ++ "/" := by
    decide +kernel
  cases kind with
  | service =>
    have root : "/api/v1/namespaces/" = "/api/v1/namespaces" ++ "/" := by decide +kernel
    have plural : "/services/" = "/" ++ "services" ++ "/" := by decide +kernel
    unfold StatusPatch.collection
    rw [root, plural]
    rfl
  | gateway =>
    have plural : "/gateways/" = "/" ++ "gateways" ++ "/" := by decide +kernel
    unfold StatusPatch.collection
    rw [gateways, plural]
    rfl
  | httpRoute =>
    have plural : "/httproutes/" = "/" ++ "httproutes" ++ "/" := by decide +kernel
    unfold StatusPatch.collection
    rw [gateways, plural]
    rfl
  | policy kind =>
    have root : "/apis/" ++ policyApiVersion ++ "/namespaces/" =
        "/apis/networking.gke.io/v1/namespaces" ++ "/" := by
      decide +kernel
    unfold StatusPatch.collection
    rw [root]
    simp only [String.append_assoc]
    rfl

theorem toList_statusUri (kind : WatchedKind) (ns name : String) (force : Bool) :
    (statusUri kind ns name force).toList =
      statusPath kind ns name ++ (Request.patchQuery force policyGroup).toList := by
  have status : "/status".toList = '/' :: "status".toList := by decide
  have slash : "/".toList = ['/'] := by decide
  rw [statusUri, collection_eq]
  simp only [String.toList_append, status, slash, statusPath, List.append_assoc, List.cons_append,
    List.nil_append]

/-- The query begins with its mark, and has no second one that would cut it. -/
theorem exists_patchQuery_eq (force : Bool) : ∃ query,
    (Request.patchQuery force policyGroup).toList = '?' :: query ∧
      query.all isQueryCharacter = true ∧ '#' ∉ query := by
  cases force
  · exact ⟨"&fieldManager=networking.gke.io".toList, by decide +kernel⟩
  · exact ⟨"&force=true&fieldManager=networking.gke.io".toList, by decide +kernel⟩

end StatusUri

section Reading

variable {kind : WatchedKind} {ns name : String} {c : Char}

theorem ne_of_isPathCharacter (h : isPathCharacter c = true) : c ≠ '?' ∧ c ≠ '#' := by
  simp only [isPathCharacter, List.all_cons, Bool.and_eq_true, bne_iff_ne, ne_eq] at h
  exact ⟨Ne.symm h.2.2.1, Ne.symm h.2.1⟩

/-- The names of kinds are made of characters of a path. -/
theorem characters_of_kind (kind : WatchedKind) :
    (∀ c ∈ kind.root.toList, isPathCharacter c = true) ∧
      ∀ c ∈ kind.plural.toList, isPathCharacter c = true := by
  have characters : kind.root.toList.all isPathCharacter = true ∧
      kind.plural.toList.all isPathCharacter = true := by
    cases kind with
    | service => decide +kernel
    | gateway => decide +kernel
    | httpRoute => decide +kernel
    | policy kind => cases kind <;> decide +kernel
  exact ⟨List.all_eq_true.1 characters.1, List.all_eq_true.1 characters.2⟩

/-- Between two segments a path has only characters of paths. -/
theorem IsSegment.isPathCharacter_of_mem_statusPath (hns : IsSegment ns) (hname : IsSegment name)
    (h : c ∈ statusPath kind ns name) : isPathCharacter c = true := by
  obtain ⟨root, plural⟩ := characters_of_kind kind
  have status : "status".toList.all isPathCharacter = true := by decide +kernel
  have slash : isPathCharacter '/' = true := by decide
  simp only [statusPath, List.mem_append, List.mem_cons] at h
  rcases h with h | rfl | h | rfl | h | rfl | h | rfl | h
  · exact root c h
  · exact slash
  · exact (hns.2 c h).1
  · exact slash
  · exact plural c h
  · exact slash
  · exact (hname.2 c h).1
  · exact slash
  · exact List.all_eq_true.1 status c h

/-- The path of an address is what stands before its query. -/
theorem IsSegment.path_statusUri (hns : IsSegment ns) (hname : IsSegment name) (force : Bool) :
    (path (statusUri kind ns name force)).toList = statusPath kind ns name := by
  obtain ⟨query, heq, -⟩ := exists_patchQuery_eq force
  rw [path, toList_statusUri, heq, String.toList_ofList, List.takeWhile_append_of_pos]
  · simp
  · intro c hc
    exact bne_iff_ne.2 (ne_of_isPathCharacter (hns.isPathCharacter_of_mem_statusPath hname hc)).1

/-- An address made of segments can be sent as it is, unless it is too long. -/
theorem IsSegment.sent?_statusUri (hns : IsSegment ns) (hname : IsSegment name) {force : Bool}
    (short : (statusUri kind ns name force).utf8ByteSize ≤ maxBytes) :
    sent? (statusUri kind ns name force) = .ok (statusUri kind ns name force) := by
  obtain ⟨query, heq, characters, noFragment⟩ := exists_patchQuery_eq force
  have inPath : ∀ c ∈ statusPath kind ns name, isPathCharacter c = true :=
    fun c hc => hns.isPathCharacter_of_mem_statusPath hname hc
  have text := toList_statusUri kind ns name force
  rw [heq] at text
  have whole : (statusUri kind ns name force).toList.takeWhile (· != '#') =
      statusPath kind ns name ++ '?' :: query := by
    rw [text]
    refine List.takeWhile_eq_self_iff.2 fun c hc => bne_iff_ne.2 ?_
    rintro rfl
    rcases List.mem_append.1 hc with hc | hc
    · exact (ne_of_isPathCharacter (inPath _ hc)).2 rfl
    · rcases List.mem_cons.1 hc with hc | hc
      · revert hc
        decide
      · exact noFragment hc
  have before : (statusPath kind ns name ++ '?' :: query).takeWhile (· != '?') =
      statusPath kind ns name := by
    rw [List.takeWhile_append_of_pos fun c hc => bne_iff_ne.2 (ne_of_isPathCharacter (inPath c hc)).1]
    simp
  have after : (statusPath kind ns name ++ '?' :: query).dropWhile (· != '?') = '?' :: query := by
    rw [List.dropWhile_append_of_pos fun c hc => bne_iff_ne.2 (ne_of_isPathCharacter (inPath c hc)).1]
    simp
  unfold sent?
  rw [if_neg (Nat.not_lt.2 short)]
  simp only [whole, before, after, List.drop_one, List.tail_cons, characters, Bool.and_true]
  rw [if_pos (List.all_eq_true.2 inPath), ← text, String.ofList_toList]

/-- An address made of segments leads to the object that it was made for. -/
theorem IsSegment.statusAt?_statusUri (hns : IsSegment ns) (hname : IsSegment name) (force : Bool) :
    statusAt? (statusUri kind ns name force) = some ⟨kind.apiVersion, kind.plural, ns, name⟩ := by
  have apart : ∀ {s : String}, IsSegment s → '/' ∉ s.toList := fun hs hm => (hs.2 _ hm).2.1 rfl
  have plural : '/' ∉ kind.plural.toList := by
    cases kind with
    | policy kind => cases kind <;> decide +kernel
    | service => decide
    | gateway => decide
    | httpRoute => decide
  have status : '/' ∉ "status".toList := by decide
  have parts : segments (statusUri kind ns name force) =
      (kind.root.toList.splitOn '/').map String.ofList ++ [ns, kind.plural, name, "status"] := by
    rw [segments, hns.path_statusUri hname, statusPath, List.splitOn_append_cons_self,
      List.splitOn_append_cons_self_of_not_mem (apart hns),
      List.splitOn_append_cons_self_of_not_mem plural,
      List.splitOn_append_cons_self_of_not_mem (apart hname), List.splitOn_eq_singleton status,
      List.map_append]
    simp only [List.map_cons, List.map_nil, String.ofList_toList]
  have core : ("/api/v1/namespaces".toList.splitOn '/').map String.ofList =
      ["", "api", "v1", "namespaces"] := by
    decide +kernel
  have gateways : ("/apis/gateway.networking.k8s.io/v1beta1/namespaces".toList.splitOn '/').map
      String.ofList = ["", "apis", "gateway.networking.k8s.io", "v1beta1", "namespaces"] := by
    decide +kernel
  have policies : ("/apis/networking.gke.io/v1/namespaces".toList.splitOn '/').map String.ofList =
      ["", "apis", "networking.gke.io", "v1", "namespaces"] := by
    decide +kernel
  rw [statusAt?, parts]
  cases kind with
  | service =>
    rw [WatchedKind.root, core]
    rfl
  | gateway =>
    rw [WatchedKind.root, gateways]
    rfl
  | httpRoute =>
    rw [WatchedKind.root, gateways]
    rfl
  | policy kind =>
    rw [WatchedKind.root, policies]
    rfl

end Reading

end Uri
end PolicyAttachment
