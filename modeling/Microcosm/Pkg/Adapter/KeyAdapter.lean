import Microcosm.Library.Hex
import Microcosm.Library.Path

/-!
# Key adapters

`pkg/adapter/keyadapter.go`. A key adapter is a prefix; `Encode` hex-encodes each key and
joins the prefix and the encodings with `path.Join`; `Decode` drops a trailing slash, the
prefix, splits at '/' and hex-decodes each element; `Curry` makes the encoding of some keys
the prefix of a new adapter. Go strings are byte strings: the keys are lists of bytes, and
the prefix and the encoded keys, which only hold ASCII characters, are lists of characters.

Every constant adapter, and every adapter curried from one (`Derived`), has a prefix made
of names between slashes (`WellFormed`). On those, `Curry` composes with `Encode`
(`curry_encode`), and `Decode` inverts `Encode` on non-empty lists of non-empty keys
(`decode_encode`). An empty key hex-encodes to the empty string, which `path.Join` drops:
`Encode` forgets it, and `Decode` of the encoding of `[""]` fails
(`decode_encode_empty_key`).
-/

namespace Microcosm

namespace Adapter

/-- `keyHexEncoderDecoder`, a string type: the adapter is its prefix. -/
structure KeyHexEncoderDecoder where
  path : List Char
  deriving DecidableEq, Repr

/-- What `Decode` and `Curry` can end in. -/
inductive KeyAdapterError
  /-- `key[len(key)-1]` on an empty string: Go's run-time panic. -/
  | indexOutOfRange
  /-- `errors.ErrDecodeEtcdKeyFail`, wrapping the error of `hex.DecodeString`. -/
  | errDecodeEtcdKeyFail (err : Hex.Error)
  deriving DecidableEq, Repr

/-- `MasterCampaignKey`. -/
def masterCampaignKey : KeyHexEncoderDecoder := ⟨"/data-flow/master/leader/".toList⟩
/-- `MasterInfoKey`. -/
def masterInfoKey : KeyHexEncoderDecoder := ⟨"/data-flow/master/info/".toList⟩
/-- `MasterMetaKey`. -/
def masterMetaKey : KeyHexEncoderDecoder := ⟨"/data-flow/master/meta/".toList⟩
/-- `NodeInfoKeyAdapter`. -/
def nodeInfoKeyAdapter : KeyHexEncoderDecoder := ⟨"/data-flow/node/info/".toList⟩
/-- `JobKeyAdapter`. -/
def jobKeyAdapter : KeyHexEncoderDecoder := ⟨"/data-flow/job/".toList⟩
/-- `TaskKeyAdapter`. -/
def taskKeyAdapter : KeyHexEncoderDecoder := ⟨"/data-flow/task/".toList⟩
/-- `WorkerKeyAdapter`. -/
def workerKeyAdapter : KeyHexEncoderDecoder := ⟨"/data-flow/worker/".toList⟩
/-- `UserKeyAdapter`. -/
def userKeyAdapter : KeyHexEncoderDecoder := ⟨"/data-flow/user/".toList⟩
/-- `ResourceKeyAdapter`. -/
def resourceKeyAdapter : KeyHexEncoderDecoder := ⟨"/data-flow/resources/".toList⟩
/-- `DMJobKeyAdapter`. -/
def dmJobKeyAdapter : KeyHexEncoderDecoder := ⟨"/data-flow/dm/job/".toList⟩

/-- The constant adapters. -/
def constantAdapters : List KeyHexEncoderDecoder :=
  [masterCampaignKey, masterInfoKey, masterMetaKey, nodeInfoKeyAdapter, jobKeyAdapter,
    taskKeyAdapter, workerKeyAdapter, userKeyAdapter, resourceKeyAdapter, dmJobKeyAdapter]

/-- `strings.TrimPrefix`. -/
def trimPrefix (s pre : List Char) : List Char :=
  if pre <+: s then s.drop pre.length else s

namespace KeyHexEncoderDecoder

/-- `Encode`. -/
def encode (s : KeyHexEncoderDecoder) (keys : List (List UInt8)) : List Char :=
  Path.join (s.path :: keys.map Hex.encodeToString)

/-- The loop of `Decode` over the split elements, which stops at the first that is not hex. -/
def decodeElems : List (List Char) → Except KeyAdapterError (List (List UInt8))
  | [] => .ok []
  | k :: ks =>
      match Hex.decodeString k with
      | .error err => .error (.errDecodeEtcdKeyFail err)
      | .ok dec => (decodeElems ks).map (dec :: ·)

/-- `Decode`. -/
def decode (s : KeyHexEncoderDecoder) (key : List Char) :
    Except KeyAdapterError (List (List UInt8)) :=
  match key.getLast? with
  | none => .error .indexOutOfRange
  | some c =>
      let key := if c = '/' then key.dropLast else key
      decodeElems ((trimPrefix key s.path).splitOn '/')

/-- `Path`. -/
def getPath (s : KeyHexEncoderDecoder) : List Char :=
  s.path

/-- `Curry`. -/
def curry (s : KeyHexEncoderDecoder) (keys : List (List UInt8)) :
    Except KeyAdapterError KeyHexEncoderDecoder :=
  let pre := s.encode keys
  match pre.getLast? with
  | none => .error .indexOutOfRange
  | some c => .ok ⟨if c ≠ '/' then pre ++ ['/'] else pre⟩

end KeyHexEncoderDecoder

open KeyHexEncoderDecoder

/-- The adapters of the code: the constants, and what `Curry` makes of them. -/
inductive Derived : KeyHexEncoderDecoder → Prop
  | const {s : KeyHexEncoderDecoder} : s ∈ constantAdapters → Derived s
  | curry {s s' : KeyHexEncoderDecoder} (keys : List (List UInt8)) :
      Derived s → s.curry keys = .ok s' → Derived s'

/-- A prefix made of names between slashes, ending in a slash. -/
def WellFormed (s : KeyHexEncoderDecoder) (names : List (List Char)) : Prop :=
  names ≠ [] ∧ (∀ e ∈ names, Path.IsName e) ∧ s.path = Path.render true names ++ ['/']

instance (s : KeyHexEncoderDecoder) (names : List (List Char)) :
    Decidable (WellFormed s names) :=
  inferInstanceAs (Decidable (_ ∧ _ ∧ _))

/-- The elements `Encode` keeps of some keys: the encodings of the keys that are not empty. -/
def encodedNames (keys : List (List UInt8)) : List (List Char) :=
  (keys.map Hex.encodeToString).filter (· ≠ [])

example : encodedNames [[0x61], [], [0x2f]] = ["61".toList, "2f".toList] := by decide

theorem encodedNames_append (ks₁ ks₂ : List (List UInt8)) :
    encodedNames (ks₁ ++ ks₂) = encodedNames ks₁ ++ encodedNames ks₂ := by
  simp [encodedNames, List.filter_append]

/-- The encoding of a key that is not empty is a name. -/
theorem isName_encodeToString {k : List UInt8} (hk : k ≠ []) :
    Path.IsName (Hex.encodeToString k) := by
  have hdot := Hex.dot_not_mem_encodeToString k
  refine ⟨fun h => hk (Hex.encodeToString_eq_nil.1 h), fun h => ?_, fun h => ?_,
    Hex.slash_not_mem_encodeToString k⟩
  · exact hdot (by rw [h]; exact List.mem_singleton_self _)
  · exact hdot (by rw [h]; exact List.mem_cons_self)

theorem namesOrEmpty_encodeToString (keys : List (List UInt8)) :
    ∀ e ∈ keys.map Hex.encodeToString, e = [] ∨ Path.IsName e := by
  intro e he
  obtain ⟨k, -, rfl⟩ := List.mem_map.1 he
  by_cases hk : k = []
  · exact .inl (by rw [hk]; rfl)
  · exact .inr (isName_encodeToString hk)

theorem isName_of_mem_encodedNames {keys : List (List UInt8)} {e : List Char}
    (he : e ∈ encodedNames keys) : Path.IsName e := by
  obtain ⟨hmem, hne⟩ := List.mem_filter.1 he
  rcases namesOrEmpty_encodeToString keys e hmem with rfl | h
  · simp at hne
  · exact h

/-- The encodings of non-empty keys are all kept. -/
theorem encodedNames_of_ne_nil {keys : List (List UInt8)} (hkeys : ∀ k ∈ keys, k ≠ []) :
    encodedNames keys = keys.map Hex.encodeToString := by
  refine List.filter_eq_self.2 fun e he => ?_
  obtain ⟨k, hk, rfl⟩ := List.mem_map.1 he
  simpa using fun h => hkeys k hk (Hex.encodeToString_eq_nil.1 h)

section WellFormed

variable {s : KeyHexEncoderDecoder} {names : List (List Char)}

/-- `Encode` on a well-formed prefix: its names, then the names the keys encode to, written
rooted. -/
theorem WellFormed.encode (hs : WellFormed s names) (keys : List (List UInt8)) :
    s.encode keys = Path.render true (names ++ encodedNames keys) := by
  obtain ⟨hne, hnames, hpath⟩ := hs
  have hroot : Path.isRooted s.path = true := by
    rw [hpath]
    rfl
  rw [KeyHexEncoderDecoder.encode, Path.join_rooted_cons hroot
    (namesOrEmpty_encodeToString keys), hpath, Path.cleanElems_render_slash hne hnames]
  rfl

theorem WellFormed.isName_append (hs : WellFormed s names) (keys : List (List UInt8)) :
    ∀ e ∈ names ++ encodedNames keys, Path.IsName e := by
  intro e he
  rcases List.mem_append.1 he with he | he
  · exact hs.2.1 e he
  · exact isName_of_mem_encodedNames he

/-- What `Encode` writes on a well-formed prefix ends in a character that is no slash. -/
theorem WellFormed.getLast?_encode (hs : WellFormed s names) (keys : List (List UInt8)) :
    ∃ c, (s.encode keys).getLast? = some c ∧ c ≠ '/' := by
  rw [hs.encode]
  exact Path.getLast?_render_true (by simp [hs.1]) (hs.isName_append keys)

/-- `Curry` on a well-formed prefix is well-formed, with the names of the keys added. -/
theorem WellFormed.curry (hs : WellFormed s names) (keys : List (List UInt8)) :
    ∃ s', s.curry keys = .ok s' ∧ WellFormed s' (names ++ encodedNames keys) := by
  have hnames' := hs.isName_append keys
  have hne' : names ++ encodedNames keys ≠ [] := by simp [hs.1]
  -- the encoding ends in a name, so `Curry` adds the slash
  obtain ⟨c, hc, hcs⟩ := hs.getLast?_encode keys
  refine ⟨⟨Path.render true (names ++ encodedNames keys) ++ ['/']⟩, ?_, hne', hnames', rfl⟩
  unfold KeyHexEncoderDecoder.curry
  dsimp only
  rw [hc]
  simp only [ne_eq, hcs, not_false_eq_true, if_true, hs.encode]

/-- A key made by `Encode` from non-empty keys is the prefix followed by their encodings. -/
theorem WellFormed.encode_eq_append (hs : WellFormed s names) {keys : List (List UInt8)}
    (hkeys : keys ≠ []) (hne : ∀ k ∈ keys, k ≠ []) :
    s.encode keys = s.path ++ ['/'].intercalate (keys.map Hex.encodeToString) := by
  have hmap : keys.map Hex.encodeToString ≠ [] := by simpa using hkeys
  rw [hs.encode, encodedNames_of_ne_nil hne, hs.2.2]
  simp only [Path.render, if_true]
  rw [Path.intercalate_append hs.1 hmap]
  simp

end WellFormed

theorem derived_wellFormed {s : KeyHexEncoderDecoder} (h : Derived s) :
    ∃ names, WellFormed s names := by
  induction h with
  | const hmem =>
      simp only [constantAdapters, List.mem_cons, List.not_mem_nil, or_false] at hmem
      rcases hmem with rfl | rfl | rfl | rfl | rfl | rfl | rfl | rfl | rfl | rfl
      · exact ⟨["data-flow".toList, "master".toList, "leader".toList], by decide⟩
      · exact ⟨["data-flow".toList, "master".toList, "info".toList], by decide⟩
      · exact ⟨["data-flow".toList, "master".toList, "meta".toList], by decide⟩
      · exact ⟨["data-flow".toList, "node".toList, "info".toList], by decide⟩
      · exact ⟨["data-flow".toList, "job".toList], by decide⟩
      · exact ⟨["data-flow".toList, "task".toList], by decide⟩
      · exact ⟨["data-flow".toList, "worker".toList], by decide⟩
      · exact ⟨["data-flow".toList, "user".toList], by decide⟩
      · exact ⟨["data-flow".toList, "resources".toList], by decide⟩
      · exact ⟨["data-flow".toList, "dm".toList, "job".toList], by decide⟩
  | curry keys _ hc ih =>
      obtain ⟨names, hs⟩ := ih
      obtain ⟨s', hc', hs'⟩ := hs.curry keys
      rw [hc] at hc'
      cases hc'
      exact ⟨_, hs'⟩

/-! ## Decoding -/

theorem decodeElems_encodeToString (keys : List (List UInt8)) :
    decodeElems (keys.map Hex.encodeToString) = .ok keys := by
  induction keys with
  | nil => rfl
  | cons k keys ih =>
      simp only [List.map_cons, decodeElems, Hex.decodeString_encodeToString, ih]
      rfl

theorem trimPrefix_append (pre s : List Char) : trimPrefix (pre ++ s) pre = s := by
  simp [trimPrefix]

section Laws

variable {s : KeyHexEncoderDecoder} {names : List (List Char)}

/-- `Decode` inverts `Encode` on a non-empty list of non-empty keys. -/
theorem WellFormed.decode_encode (hs : WellFormed s names) {keys : List (List UInt8)}
    (hkeys : keys ≠ []) (hne : ∀ k ∈ keys, k ≠ []) : s.decode (s.encode keys) = .ok keys := by
  have hmap : keys.map Hex.encodeToString ≠ [] := by simpa using hkeys
  obtain ⟨c, hlast, hc⟩ := hs.getLast?_encode keys
  unfold decode
  rw [hlast]
  dsimp only
  -- no trailing slash to drop; then the prefix comes off and the encodings split apart
  rw [if_neg hc, hs.encode_eq_append hkeys hne, trimPrefix_append,
    List.splitOn_intercalate '/' (fun e he => by
      obtain ⟨k, -, rfl⟩ := List.mem_map.1 he
      exact Hex.slash_not_mem_encodeToString k) hmap,
    decodeElems_encodeToString]

/-- So `Encode` is injective on non-empty lists of non-empty keys. -/
theorem WellFormed.encode_inj (hs : WellFormed s names) {ks₁ ks₂ : List (List UInt8)}
    (h₁ : ks₁ ≠ []) (hne₁ : ∀ k ∈ ks₁, k ≠ []) (h₂ : ks₂ ≠ []) (hne₂ : ∀ k ∈ ks₂, k ≠ [])
    (h : s.encode ks₁ = s.encode ks₂) : ks₁ = ks₂ := by
  have hdec := hs.decode_encode h₁ hne₁
  rw [h, hs.decode_encode h₂ hne₂] at hdec
  cases hdec
  rfl

/-- `Curry` then `Encode` is `Encode` of all the keys. -/
theorem WellFormed.curry_encode (hs : WellFormed s names) (ks₁ ks₂ : List (List UInt8)) :
    ∃ s', s.curry ks₁ = .ok s' ∧ s'.encode ks₂ = s.encode (ks₁ ++ ks₂) := by
  obtain ⟨s', hc, hs'⟩ := hs.curry ks₁
  refine ⟨s', hc, ?_⟩
  rw [hs'.encode, hs.encode, encodedNames_append, List.append_assoc]

/-- `Encode` forgets the empty keys. -/
theorem WellFormed.encode_filter (hs : WellFormed s names) (keys : List (List UInt8)) :
    s.encode (keys.filter (· ≠ [])) = s.encode keys := by
  have hnames : encodedNames (keys.filter (· ≠ [])) = encodedNames keys := by
    induction keys with
    | nil => rfl
    | cons k keys ih =>
        by_cases hk : k = []
        · subst hk
          simpa [encodedNames] using ih
        · simpa [encodedNames, List.filter_cons, hk, Hex.encodeToString_eq_nil] using ih
  rw [hs.encode, hs.encode, hnames]

end Laws

/-- The laws of the adapters of the code: on non-empty lists of non-empty keys `Decode`
inverts `Encode`, which is injective there, and on all lists `Curry` composes with
`Encode`. -/
theorem derived_adapter_laws {k : KeyHexEncoderDecoder} (hk : Derived k) :
    (∀ keys, keys ≠ [] → (∀ x ∈ keys, x ≠ []) → k.decode (k.encode keys) = .ok keys) ∧
    (∀ ks₁ ks₂, ks₁ ≠ [] → (∀ x ∈ ks₁, x ≠ []) → ks₂ ≠ [] → (∀ x ∈ ks₂, x ≠ []) →
      k.encode ks₁ = k.encode ks₂ → ks₁ = ks₂) ∧
    (∀ ks₁ ks₂, ∃ k', k.curry ks₁ = .ok k' ∧ k'.encode ks₂ = k.encode (ks₁ ++ ks₂)) := by
  obtain ⟨names, hs⟩ := derived_wellFormed hk
  exact ⟨fun _ hkeys hne => hs.decode_encode hkeys hne,
    fun _ _ h₁ hne₁ h₂ hne₂ h => hs.encode_inj h₁ hne₁ h₂ hne₂ h, hs.curry_encode⟩

theorem derived_adapter_laws_jobKey :
    jobKeyAdapter.decode (jobKeyAdapter.encode [[0x6a, 0x6f, 0x62]]) = .ok [[0x6a, 0x6f, 0x62]] :=
  (derived_adapter_laws (.const (by decide))).1 _ (by decide) (by decide)

/-- An empty key breaks the round trip: `Encode` of `[""]` is the prefix without its slash,
which `Decode` splits into the prefix's own elements and fails on `data-flow`; and `Encode`
of `["a"]` and `["a", ""]` is the same key. -/
theorem decode_encode_empty_key :
    jobKeyAdapter.decode (jobKeyAdapter.encode [[]]) =
        .error (.errDecodeEtcdKeyFail (.invalidByte 't')) ∧
      jobKeyAdapter.encode [[0x61]] = jobKeyAdapter.encode [[0x61], []] :=
  ⟨by decide, by decide⟩

end Adapter

end Microcosm
