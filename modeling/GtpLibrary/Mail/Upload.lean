import Mathlib.Data.List.Basic
import GtpLibrary.Mail.CurlEmail

/-!
# What an upload delivers

Callback `k` delivers line `k` up to its first NUL, whatever the buffer holds, until
the lines are used up (`deliveryAt_line`, `deliveryAt_done`). The upload is therefore
the mail exactly when no line has a NUL and each line fits the buffer of its callback.
-/

namespace GtpLibrary.Mail
open GtpLibrary.Lib

/-! ## Builder -/

/-- A call adds no line or one line, and a line it adds ends in CRLF. -/
theorem BuilderCall.run_lines (m : CurlEmail) (c : BuilderCall) :
    ∃ added, (c.run m).mailContent = m.mailContent ++ added ∧ ∀ line ∈ added, CurlEmail.crlf <:+ line := by
  have field : ∀ (m : CurlEmail) (key value : List Byte),
      ∃ added, (m.addField key value).mailContent = m.mailContent ++ added ∧
        ∀ line ∈ added, CurlEmail.crlf <:+ line := by
    intro m key value
    exact ⟨[_], rfl, List.forall_mem_singleton.2 (List.suffix_append _ _)⟩
  cases c with
  | setRecipients recipients => exact ⟨[], by simp [run, CurlEmail.setRecipients], by simp⟩
  | addField key value => exact field m key value
  | addEmptyField => exact ⟨[_], rfl, by simp⟩
  | addTo recipient => exact field m _ _
  | addCc cc => exact field m _ _
  | addFrom sender => exact field { m with sender := sender } _ _
  | addSubject subject => exact field m _ _
  | addData data => exact ⟨[_], rfl, by simp⟩

/-- Every line of a mail ends in CRLF. -/
theorem build_lines (calls : List BuilderCall) :
    ∀ line ∈ (build calls).mailContent, CurlEmail.crlf <:+ line := by
  suffices ∀ m : CurlEmail, (∀ line ∈ m.mailContent, CurlEmail.crlf <:+ line) →
      ∀ line ∈ (calls.foldl BuilderCall.run m).mailContent, CurlEmail.crlf <:+ line from
    this {} (by simp)
  induction calls with
  | nil => exact fun m h => h
  | cons c rest ih =>
    intro m h
    obtain ⟨added, eq, ends⟩ := c.run_lines m
    apply ih
    intro line member
    rw [eq, List.mem_append] at member
    exact member.elim (h line) (ends line)

theorem build_line_ne_nil {calls : List BuilderCall} {line : List Byte}
    (member : line ∈ (build calls).mailContent) : line ≠ [] := by
  rintro rfl
  have ends := (build_lines calls [] member).length_le
  simp [CurlEmail.crlf, text] at ends

/-! ## One callback -/

section
variable {lines : List (List Byte)} {requests : Nat → ReadRequest}

theorem ReadRequest.room_of_capacity {r : ReadRequest} (positive : 1 ≤ r.capacity) :
    ¬ (r.size = 0 ∨ r.nmemb = 0 ∨ r.size * r.nmemb < 1) := by
  unfold ReadRequest.capacity at positive
  rintro (zero | zero | zero)
  · simp [zero] at positive
  · simp [zero] at positive
  · rw [BitVec.lt_def] at zero
    simp at zero
    simp [zero] at positive

theorem payloadSource_line {k : Nat} {r : ReadRequest} (positive : 1 ≤ r.capacity)
    (more : k < lines.length) (small : k < intMax) :
    payloadSource ⟨k, lines⟩ r =
      some (⟨cString lines[k], (cString lines[k]).length⟩, ⟨k + 1, lines⟩) := by
  unfold payloadSource
  rw [if_neg (ReadRequest.room_of_capacity positive), dif_pos more, if_pos small]

theorem payloadSource_done {k : Nat} {r : ReadRequest} (beyond : lines.length ≤ k) :
    payloadSource ⟨k, lines⟩ r = some (⟨[], 0⟩, ⟨k, lines⟩) := by
  unfold payloadSource
  rw [dif_neg (Nat.not_lt.2 beyond), ite_self]

/-- The increment that leaves the range of `int`. -/
theorem payloadSource_overflow {r : ReadRequest} (positive : 1 ≤ r.capacity)
    (more : intMax < lines.length) : payloadSource ⟨intMax, lines⟩ r = none := by
  unfold payloadSource
  rw [if_neg (ReadRequest.room_of_capacity positive), dif_pos more, if_neg (Nat.lt_irrefl _)]

/-! ## A session -/

/-- While there are lines, `lines_read` counts the callbacks. -/
theorem statusAt_line (positive : ∀ k, 1 ≤ (requests k).capacity) {k : Nat}
    (inside : k ≤ lines.length) (small : k ≤ intMax) :
    statusAt ⟨0, lines⟩ requests k = some ⟨k, lines⟩ := by
  induction k with
  | zero => rfl
  | succ k ih =>
    rw [statusAt, ih (by omega) (by omega), Option.bind_some,
      payloadSource_line (positive k) (by omega) (by omega)]
    rfl

/-- Behind the last line the status stays. -/
theorem statusAt_done (positive : ∀ k, 1 ≤ (requests k).capacity) (few : lines.length ≤ intMax)
    {k : Nat} (beyond : lines.length ≤ k) :
    statusAt ⟨0, lines⟩ requests k = some ⟨lines.length, lines⟩ := by
  induction k, beyond using Nat.le_induction with
  | base => exact statusAt_line positive le_rfl few
  | succ k _ ih =>
    rw [statusAt, ih, Option.bind_some, payloadSource_done le_rfl]
    rfl

theorem deliveryAt_line (positive : ∀ k, 1 ≤ (requests k).capacity) {k : Nat}
    (more : k < lines.length) (small : k < intMax) :
    deliveryAt ⟨0, lines⟩ requests k = some ⟨cString lines[k], (cString lines[k]).length⟩ := by
  unfold deliveryAt
  rw [statusAt_line positive more.le small.le, Option.bind_some, payloadSource_line (positive k) more small]
  rfl

theorem deliveryAt_done (positive : ∀ k, 1 ≤ (requests k).capacity) (few : lines.length ≤ intMax)
    {k : Nat} (beyond : lines.length ≤ k) : deliveryAt ⟨0, lines⟩ requests k = some ⟨[], 0⟩ := by
  unfold deliveryAt
  rw [statusAt_done positive few beyond, Option.bind_some, payloadSource_done le_rfl]
  rfl

theorem deliveryAt_overflow (positive : ∀ k, 1 ≤ (requests k).capacity) (many : intMax < lines.length) :
    deliveryAt ⟨0, lines⟩ requests intMax = none := by
  unfold deliveryAt
  rw [statusAt_line positive many.le le_rfl, Option.bind_some, payloadSource_overflow (positive _) many]
  rfl

/-- The first `k` callbacks deliver the first `k` lines, each up to its first NUL. -/
theorem delivered_lines (positive : ∀ k, 1 ≤ (requests k).capacity) (few : lines.length ≤ intMax)
    {k : Nat} (inside : k ≤ lines.length) :
    delivered ⟨0, lines⟩ requests k = ((lines.take k).map cString).flatten := by
  induction k with
  | zero => rfl
  | succ k ih =>
    have here := deliveryAt_line positive (show k < lines.length by omega) (by omega)
    have before := ih (by omega)
    unfold delivered at before ⊢
    rw [List.range_succ, List.flatMap_append, before, List.flatMap_singleton, here,
      List.take_succ_eq_append_getElem (by omega), List.map_append, List.flatten_append]
    simp

/-- A NUL in a line makes the delivered bytes fewer than those of the mail. -/
theorem length_cStrings_lt {lines : List (List Byte)} {line : List Byte} (member : line ∈ lines)
    (nul : (0 : Byte) ∈ line) : (lines.map cString).flatten.length < lines.flatten.length := by
  have shorter : ∀ lines : List (List Byte),
      (lines.map cString).flatten.length ≤ lines.flatten.length := by
    intro lines
    induction lines with
    | nil => simp
    | cons line rest ih =>
      have := cString_length_le line
      simp only [List.map_cons, List.flatten_cons, List.length_append]
      omega
  induction lines with
  | nil => cases member
  | cons first rest ih =>
    have head := cString_length_le first
    have tail := shorter rest
    simp only [List.map_cons, List.flatten_cons, List.length_append]
    rcases List.mem_cons.1 member with rfl | later
    · have := cString_length_lt nul
      omega
    · have := ih later
      omega

/-! ## The whole upload -/

/-- No line holds a NUL and each fits the buffer of the callback it is copied in. -/
structure Fits (lines : List (List Byte)) (requests : Nat → ReadRequest) : Prop where
  few : lines.length ≤ intMax
  clean : ∀ line ∈ lines, (0 : Byte) ∉ line
  room : ∀ k (inside : k < lines.length), lines[k].length ≤ (requests k).capacity

theorem UploadsMail.few (positive : ∀ k, 1 ≤ (requests k).capacity)
    (uploads : UploadsMail ⟨0, lines⟩ requests) : lines.length ≤ intMax := by
  by_contra many
  obtain ⟨d, defined, -⟩ := uploads.within intMax
  rw [deliveryAt_overflow positive (by omega)] at defined
  cases defined

theorem UploadsMail.clean (positive : ∀ k, 1 ≤ (requests k).capacity)
    (uploads : UploadsMail ⟨0, lines⟩ requests) : ∀ line ∈ lines, (0 : Byte) ∉ line := by
  intro line member nul
  have few := uploads.few positive
  obtain ⟨k, ⟨-, nonzero⟩, whole⟩ := uploads.complete
  have inside : k ≤ lines.length := by
    by_contra beyond
    obtain ⟨d, here, positive'⟩ := nonzero lines.length (by omega)
    rw [deliveryAt_done positive few le_rfl, Option.some.injEq] at here
    exact positive' (here ▸ rfl)
  have prefixed : ((lines.take k).map cString).flatten.length ≤ (lines.map cString).flatten.length := by
    conv_rhs => rw [← List.take_append_drop k lines]
    rw [List.map_append, List.flatten_append, List.length_append]
    exact Nat.le_add_right _ _
  rw [delivered_lines positive few inside] at whole
  have := length_cStrings_lt member nul
  rw [whole] at prefixed
  simp only at prefixed
  omega

theorem UploadsMail.room (positive : ∀ k, 1 ≤ (requests k).capacity)
    (uploads : UploadsMail ⟨0, lines⟩ requests) :
    ∀ k (inside : k < lines.length), lines[k].length ≤ (requests k).capacity := by
  intro k inside
  have few := uploads.few positive
  have clean := uploads.clean positive lines[k] (List.getElem_mem inside)
  obtain ⟨d, here, bound, -⟩ := uploads.within k
  rw [deliveryAt_line positive inside (by omega), Option.some.injEq] at here
  rw [← here, cString_eq_self clean] at bound
  exact bound

theorem Fits.uploads (fits : Fits lines requests) (positive : ∀ k, 1 ≤ (requests k).capacity)
    (nonempty : ∀ line ∈ lines, line ≠ []) : UploadsMail ⟨0, lines⟩ requests := by
  have same : ∀ k (inside : k < lines.length), cString lines[k] = lines[k] := fun k inside =>
    cString_eq_self (fits.clean _ (List.getElem_mem inside))
  have line : ∀ k (inside : k < lines.length),
      deliveryAt ⟨0, lines⟩ requests k = some ⟨lines[k], lines[k].length⟩ := by
    intro k inside
    rw [deliveryAt_line positive inside (by have := fits.few; omega), same k inside]
  refine ⟨fun k => ?_, lines.length, ⟨⟨_, deliveryAt_done positive fits.few le_rfl, rfl⟩, ?_⟩, ?_⟩
  · by_cases inside : k < lines.length
    · exact ⟨_, line k inside, fits.room k inside, rfl⟩
    · exact ⟨_, deliveryAt_done positive fits.few (by omega), Nat.zero_le _, rfl⟩
  · intro j inside
    refine ⟨_, line j inside, ?_⟩
    simpa using nonempty _ (List.getElem_mem inside)
  · rw [delivered_lines positive fits.few le_rfl, List.take_length]
    congr 1
    exact (List.map_congr_left fun l h => cString_eq_self (fits.clean l h)).trans (List.map_id lines)

end

/-- **The mail upload.** Whatever was built and whatever buffers libcurl brings, the
upload delivers the mail exactly when it fits. -/
theorem uploadsMail_iff_fits (calls : List BuilderCall) (requests : Nat → ReadRequest)
    (positive : ∀ k, 1 ≤ (requests k).capacity) :
    UploadsMail (build calls).uploadStatus requests ↔ Fits (build calls).mailContent requests := by
  constructor
  · intro uploads
    exact ⟨uploads.few positive, uploads.clean positive, uploads.room positive⟩
  · intro fits
    apply fits.uploads positive
    intro line member
    exact build_line_ne_nil member

/-- A short mail through a buffer of 16 KiB. -/
theorem uploadsMail_iff_fits_hello :
    (∀ _ : Nat, 1 ≤ (ReadRequest.mk 1 16384).capacity) ∧
      (UploadsMail (build [.addData (text "hello")]).uploadStatus (fun _ => ⟨1, 16384⟩) ↔
        Fits (build [.addData (text "hello")]).mailContent fun _ => ⟨1, 16384⟩) :=
  ⟨fun _ => by decide, uploadsMail_iff_fits _ _ fun _ => by decide⟩

/-- A data line of 20000 characters is copied whole into a buffer of 16 KiB. -/
theorem upload_overflows_buffer :
    ¬ UploadsMail (build [.addData (List.replicate 20000 (byte 'a'))]).uploadStatus
      fun _ => ⟨1, 16384⟩ := by
  intro uploads
  have whole : UploadsMail ⟨0, [List.replicate 20000 (byte 'a') ++ CurlEmail.crlf]⟩ fun _ => ⟨1, 16384⟩ :=
    uploads
  have room := whole.room (fun _ => by decide) 0 Nat.one_pos
  rw [List.getElem_cons_zero, List.length_append, List.length_replicate] at room
  have capacity : (ReadRequest.mk 1 16384).capacity = 16384 := by decide
  omega

end GtpLibrary.Mail
