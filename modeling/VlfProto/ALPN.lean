import VlfProto.Platform.TextRoundTrip

/-! # The protocol identifiers of a connection -/

namespace VlfProto.ALPN
open Platform List

/-- A list under construction, and the entries that it has. -/
structure ProtoIDs where
  out : List Bytes := []
  seen : Finset Bytes := ∅

/-- The closure of the same name in both functions below. -/
def appendOne (s : ProtoIDs) (v : Bytes) : ProtoIDs :=
  if trimSpace v = [] then s
  else if trimSpace v ∈ s.seen then s
  else ⟨s.out ++ [trimSpace v], insert (trimSpace v) s.seen⟩

def defaultProtoIDCompat : List Bytes := [ascii "vlf-runtime/0.1", ascii "vlf-session/0.1"]

def resolveALPNList (primary compatRaw : Bytes) : List Bytes :=
  let s := ((trimSpace compatRaw).splitOn 44).foldl appendOne (appendOne {} primary)
  let s := appendOne (appendOne s (ascii "vlf-runtime/0.1")) (ascii "vlf-session/0.1")
  if s.out.length = 0 then s.out ++ [ascii "vlf-runtime/0.1"] else s.out

/-- `splitCSVEnv` of the client, for a variable with the given value. -/
def splitCSVEnv (value : Bytes) : List Bytes :=
  if trimSpace value = [] then []
  else (((trimSpace value).splitOn 44).map trimSpace).filter (· ≠ [])

def buildProtoIDList (primary : Bytes) (extra : List Bytes) : List Bytes :=
  let s := defaultProtoIDCompat.foldl appendOne (extra.foldl appendOne (appendOne {} primary))
  if s.out.length = 0 then s.out ++ [ascii "vlf-runtime/0.1"] else s.out

/-- The values that are not blank, trimmed. -/
def entries (values : List Bytes) : List Bytes := (values.map trimSpace).filter (· ≠ [])

def firstOccurrences (values : List Bytes) : List Bytes := (entries values).eraseDups

theorem eraseDups_concat (l : List Bytes) (a : Bytes) :
    (l ++ [a]).eraseDups = if a ∈ l then l.eraseDups else l.eraseDups ++ [a] := by
  rw [eraseDups_append, cons_removeAll, nil_removeAll]
  split_ifs <;> simp_all [eraseDups_cons]

theorem entries_append (values values' : List Bytes) :
    entries (values ++ values') = entries values ++ entries values' := by
  simp [entries]

theorem foldl_appendOne (values : List Bytes) :
    (values.foldl appendOne {}).out = firstOccurrences values ∧
      (∀ v, v ∈ (values.foldl appendOne {}).seen ↔ v ∈ entries values) ∧
      (firstOccurrences values).Nodup := by
  induction values using reverseRecOn with
  | nil => exact ⟨rfl, by simp [entries], nodup_nil⟩
  | append_singleton values v ih =>
    obtain ⟨hout, hseen, hnodup⟩ := ih
    have hlast : entries [v] = if trimSpace v = [] then [] else [trimSpace v] := by
      split_ifs with hblank <;> simp [hblank, entries]
    rw [foldl_append, foldl_cons, foldl_nil, appendOne, firstOccurrences, entries_append, hlast]
    split_ifs with hblank hmem
    · rw [append_nil]
      exact ⟨hout, hseen, hnodup⟩
    · rw [hseen] at hmem
      rw [eraseDups_concat, if_pos hmem]
      refine ⟨hout, fun v' => ?_, hnodup⟩
      grind
    · rw [hseen] at hmem
      rw [eraseDups_concat, if_neg hmem]
      refine ⟨congrArg (· ++ [trimSpace v]) hout, fun v' => ?_, ?_⟩
      · grind
      · exact concat_eq_append ▸ hnodup.concat (mt mem_eraseDups.mp hmem)

theorem ProtoIDs.out_of_foldl {values : List Bytes} (h : ascii "vlf-runtime/0.1" ∈ values) :
    (if (values.foldl appendOne {}).out.length = 0 then
      (values.foldl appendOne {}).out ++ [ascii "vlf-runtime/0.1"]
      else (values.foldl appendOne {}).out) = firstOccurrences values := by
  have htrim : trimSpace (ascii "vlf-runtime/0.1") = ascii "vlf-runtime/0.1" := by decide +kernel
  have hmem : ascii "vlf-runtime/0.1" ∈ firstOccurrences values := by
    refine mem_eraseDups.mpr (mem_filter.mpr ⟨mem_map.mpr ⟨_, h, htrim⟩, by decide⟩)
  rw [(foldl_appendOne values).1, if_neg (length_pos_of_mem hmem).ne']

theorem buildProtoIDList_eq (primary : Bytes) (extra : List Bytes) :
    buildProtoIDList primary extra =
      firstOccurrences (primary :: extra ++ defaultProtoIDCompat) := by
  rw [← ProtoIDs.out_of_foldl (by simp [defaultProtoIDCompat]), foldl_append, foldl_cons]
  rfl

theorem resolveALPNList_eq (primary compatRaw : Bytes) : resolveALPNList primary compatRaw =
    firstOccurrences (primary :: (trimSpace compatRaw).splitOn 44 ++ defaultProtoIDCompat) := by
  rw [← ProtoIDs.out_of_foldl (by simp [defaultProtoIDCompat]), foldl_append, foldl_cons]
  rfl

theorem entries_idem (values : List Bytes) : entries (entries values) = entries values := by
  have htrim : (entries values).map trimSpace = entries values := by
    refine (map_congr_left fun v hv => ?_).trans (map_id _)
    obtain ⟨w, -, rfl⟩ := mem_map.mp (mem_of_mem_filter hv)
    exact trimSpace_idem w
  rw [entries, htrim, entries, filter_filter]
  simp

theorem splitCSVEnv_eq (value : Bytes) :
    splitCSVEnv value = entries ((trimSpace value).splitOn 44) := by
  rw [splitCSVEnv]
  split_ifs with hblank
  · rw [hblank]
    decide +kernel
  · rfl

/-- The gateway and the client build the same list from the same settings, and the lists of any
two of them have an identifier in common. -/
theorem alpn_lists_agree (primary raw primary' : Bytes) (extra : List Bytes) :
    resolveALPNList primary raw = buildProtoIDList primary (splitCSVEnv raw) ∧
      (resolveALPNList primary raw).Nodup ∧
      (∀ id ∈ resolveALPNList primary raw, trimSpace id ≠ []) ∧
      resolveALPNList primary raw =
        firstOccurrences (primary :: splitCSVEnv raw ++ defaultProtoIDCompat) ∧
      (trimSpace primary = [] ∨ (resolveALPNList primary raw).head? = some (trimSpace primary)) ∧
      (∀ id ∈ defaultProtoIDCompat, id ∈ resolveALPNList primary raw) ∧
      ∃ id ∈ resolveALPNList primary raw, id ∈ buildProtoIDList primary' extra := by
  have hbuild : resolveALPNList primary raw = buildProtoIDList primary (splitCSVEnv raw) := by
    have hentries (values : List Bytes) : entries (primary :: values ++ defaultProtoIDCompat) =
        entries [primary] ++ entries values ++ entries defaultProtoIDCompat := by
      rw [entries_append, ← singleton_append, entries_append]
    rw [resolveALPNList_eq, buildProtoIDList_eq, firstOccurrences, firstOccurrences,
      splitCSVEnv_eq, hentries, hentries, entries_idem]
  have hdefault (primary : Bytes) (extra : List Bytes) (id : Bytes)
      (hid : id ∈ defaultProtoIDCompat) : id ∈ buildProtoIDList primary extra := by
    have hentries : entries defaultProtoIDCompat = defaultProtoIDCompat := by decide +kernel
    rw [buildProtoIDList_eq, firstOccurrences, mem_eraseDups, entries_append, hentries]
    exact mem_append_right _ hid
  refine ⟨hbuild, ?_, fun id hid => ?_, hbuild.trans (buildProtoIDList_eq _ _), ?_,
    fun id hid => hbuild ▸ hdefault _ _ id hid,
    ascii "vlf-runtime/0.1", hbuild ▸ hdefault _ _ _ (by decide), hdefault _ _ _ (by decide)⟩
  · rw [resolveALPNList_eq]
    exact (foldl_appendOne _).2.2
  · rw [resolveALPNList_eq, firstOccurrences, mem_eraseDups, entries] at hid
    obtain ⟨hmem, hne⟩ := mem_filter.mp hid
    obtain ⟨v, -, rfl⟩ := mem_map.mp hmem
    rw [trimSpace_idem]
    simpa using hne
  · refine or_iff_not_imp_left.mpr fun hprimary => ?_
    rw [resolveALPNList_eq, firstOccurrences, entries]
    simp [hprimary, eraseDups_cons]

end VlfProto.ALPN
