import Mathlib.Data.List.Basic
import PageReply.Proofs.Trim
import PageReply.Url

/-!
# URLs that come back

A URL that is written into a field value and read again by the client passes through `trim` and
`Url.ofBytes`. Each of the two only drops bytes, so the URL comes back exactly when neither drops
any.

A URL that is read again as it is passes through `Url.ofBytes` alone. That drops one question mark
at the end and no more, so a text with several in a row before its fragment loses another one each
time.
-/

namespace PageReply

namespace Bytes

theorem beforeFragment_eq_self {url : Bytes} (h : Byte.hash ∉ url) : beforeFragment url = url := by
  rw [beforeFragment, List.takeWhile_eq_self_iff]
  intro b hb
  simpa using ne_of_mem_of_not_mem hb h

theorem dropEmptyQuery_sublist (url : Bytes) : (dropEmptyQuery url).Sublist url := by
  unfold dropEmptyQuery
  split
  · exact List.dropLast_sublist url
  · exact List.Sublist.refl url

theorem dropEmptyQuery_eq_self_iff {url : Bytes} :
    dropEmptyQuery url = url ↔ url.getLast? ≠ some Byte.question := by
  unfold dropEmptyQuery
  split
  · next hquestion =>
    refine iff_of_false (fun hsame => ?_) (not_not_intro hquestion)
    have hlength := congrArg List.length hsame
    rw [List.length_dropLast] at hlength
    have hpos : url ≠ [] := by
      rintro rfl
      cases hquestion
    have := List.length_pos_iff.2 hpos
    omega
  · next hquestion => exact iff_of_true rfl hquestion

theorem dropEmptyQuery_concat (url : Bytes) : dropEmptyQuery (url ++ [Byte.question]) = url := by
  simp [dropEmptyQuery]

/-- Nothing is dropped, or a question mark is. -/
theorem dropEmptyQuery_cases (url : Bytes) :
    url.getLast? ≠ some Byte.question ∧ dropEmptyQuery url = url ∨
      url = dropEmptyQuery url ++ [Byte.question] := by
  by_cases hquestion : url.getLast? = some Byte.question
  · obtain ⟨rest, rfl⟩ := List.getLast?_eq_some_iff.1 hquestion
    exact .inr (by rw [dropEmptyQuery_concat])
  · exact .inl ⟨hquestion, dropEmptyQuery_eq_self_iff.2 hquestion⟩

/-- What is left ends with a question mark if there were two, and only then. -/
theorem getLast?_dropEmptyQuery_eq_iff {url : Bytes} :
    (dropEmptyQuery url).getLast? = some Byte.question ↔
      [Byte.question, Byte.question] <:+ url := by
  rw [List.getLast?_eq_some_iff]
  constructor
  · rintro ⟨rest, hrest⟩
    obtain ⟨hlast, hsame⟩ | hdrop := dropEmptyQuery_cases url
    · rw [← hsame, hrest] at hlast
      exact absurd List.getLast?_concat hlast
    · rw [hdrop, hrest]
      exact ⟨rest, by simp⟩
  · rintro ⟨rest, rfl⟩
    refine ⟨rest, ?_⟩
    rw [← dropEmptyQuery_concat (rest ++ [Byte.question]), List.append_assoc]
    rfl

end Bytes

namespace Url

theorem text_ofBytes (url : Bytes) : (ofBytes url).text = url.beforeFragment.dropEmptyQuery := rfl

theorem ofBytes_text_eq_iff (u : Url) :
    ofBytes u.text = u ↔ u.text.getLast? ≠ some Byte.question := by
  rw [Url.ext_iff, text_ofBytes, Bytes.beforeFragment_eq_self u.hash_not_mem,
    Bytes.dropEmptyQuery_eq_self_iff]

/-- **When a URL comes back as it was**: unless the text that it was made from has two question
marks at the end of what stands before its fragment. One of them is dropped the first time then, and
another one the second time. -/
theorem comes_back_iff (url : Bytes) :
    (ofBytes (ofBytes url).text = ofBytes url ↔
      ¬ [Byte.question, Byte.question] <:+ url.beforeFragment) ∧
    ([Byte.question, Byte.question] <:+ url.beforeFragment →
      (ofBytes url).text = (ofBytes (ofBytes url).text).text ++ [Byte.question]) := by
  have hlast : (ofBytes url).text.getLast? = some Byte.question ↔
      [Byte.question, Byte.question] <:+ url.beforeFragment :=
    Bytes.getLast?_dropEmptyQuery_eq_iff
  refine ⟨by rw [ofBytes_text_eq_iff, ← hlast], fun hmarks => ?_⟩
  rw [text_ofBytes (ofBytes url).text, Bytes.beforeFragment_eq_self (ofBytes url).hash_not_mem]
  obtain ⟨hnot, -⟩ | hdrop := Bytes.dropEmptyQuery_cases (ofBytes url).text
  · exact absurd (hlast.2 hmarks) hnot
  · exact hdrop

/-- A URL with an empty query is made of a text with two question marks, and another one, without
a query, of its own text. -/
theorem comes_back_changed :
    (ofBytes (ascii "base/a??")).text = ascii "base/a?" ∧
    (ofBytes (ofBytes (ascii "base/a??")).text).text = ascii "base/a" ∧
    ofBytes (ofBytes (ascii "base/a??")).text ≠ ofBytes (ascii "base/a??") := by
  decide +kernel

/-- The URL in a field value is the URL itself when it neither starts nor ends with a blank and does
not end with a question mark, and only then. -/
theorem ofBytes_trim_eq_iff (u : Url) :
    ofBytes u.text.trim = u ↔ u.text.Trimmed ∧ u.text.getLast? ≠ some Byte.question := by
  constructor
  · intro h
    have hsub : u.text.Sublist u.text.trim := by
      have hquery := Bytes.dropEmptyQuery_sublist u.text.trim.beforeFragment
      have hfragment : u.text.trim.beforeFragment.Sublist u.text.trim :=
        List.takeWhile_sublist _
      have htext : u.text.trim.beforeFragment.dropEmptyQuery = u.text := congrArg text h
      rw [htext] at hquery
      exact hquery.trans hfragment
    have htrim : u.text.trim = u.text := u.text.trim_sublist.antisymm hsub
    rw [htrim, ofBytes_text_eq_iff] at h
    exact ⟨htrim ▸ Bytes.trimmed_trim u.text, h⟩
  · rintro ⟨htrimmed, hquestion⟩
    rw [Bytes.trim_eq_self htrimmed]
    exact u.ofBytes_text_eq_iff.2 hquestion

end Url

end PageReply
