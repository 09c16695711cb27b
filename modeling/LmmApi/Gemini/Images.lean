import LmmApi.Lib.Guarded
import Mathlib.Data.List.Infix

/-!
# The images in the text of a Gemini request

`OpenAIChatRequestToGeminiGenerateContent` cuts the markdown images with a data URL out of the text
of a message: each becomes a part of inline data, and the text before it a part of its own. Three
searches find an image, and the next round goes on after its closing parenthesis. What is left when
no further image is found is dropped, and so is what stands between the first `![` and the last one
before the link.
-/

namespace LmmApi.Gemini

open Guarded List

/-! ## The searches -/

/-- `strings.Index`: what stands before the first occurrence of a text, and all from there on. -/
def index (pat text : List Char) : Option (List Char × List Char) :=
  (text.tails.find? (pat <+: ·)).map fun found => (text.take (text.length - found.length), found)

/-- What a round finds: `text[:startIdx]`, `text[startIdx:bracketIdx]`, the data URL and
`text[closeIdx+1:]`. -/
structure Found where
  before : List Char
  opening : List Char
  dataURL : List Char
  rest : List Char

/-- The three searches of a round. -/
def nextImage (text : List Char) : Option Found := do
  let (before, image) ← index ['!', '['] text
  let (opening, link) ← index [']', '(', 'd', 'a', 't', 'a', ':'] image
  let (dataURL, close) ← index [')'] (link.drop 2)
  return ⟨before, opening, dataURL, close.drop 1⟩

/-- The alternative text begins after the last `![` before the link. -/
def fromLast : List Char → List Char
  | [] => []
  | c :: text =>
    if ['!', '['] <+: c :: text ∧ ¬['!', '['] <:+: text then c :: text else fromLast text

/-- The link of an image, and the image. -/
def Found.link (f : Found) : List Char := ']' :: '(' :: (f.dataURL ++ [')'])

def Found.image (f : Found) : List Char := fromLast f.opening ++ f.link

variable {text before found : List Char} {f : Found}

theorem index_eq_some {pat : List Char} (h : index pat text = some (before, found)) :
    text = before ++ found ∧ pat <+: found := by
  obtain ⟨_, hfd, ⟨⟩⟩ := Option.map_eq_some_iff.1 h
  obtain ⟨t, rfl⟩ := (mem_tails _ _).1 (mem_of_find?_eq_some hfd)
  exact ⟨by simp, by simpa using find?_some hfd⟩

theorem nextImage_eq_some (h : nextImage text = some f) :
    text = f.before ++ (f.opening ++ (f.link ++ f.rest)) := by
  simp only [nextImage, Option.bind_eq_bind, Option.bind_eq_some_iff, Prod.exists,
    Option.pure_def, Option.some.injEq] at h
  obtain ⟨_, _, hi, _, _, hl, _, _, hd, rfl⟩ := h
  obtain ⟨rfl, -⟩ := index_eq_some hi
  obtain ⟨rfl, _, rfl⟩ := index_eq_some hl
  obtain ⟨hd, _, rfl⟩ := index_eq_some hd
  simp_all [Found.link]

theorem fromLast_suffix (text : List Char) : fromLast text <:+ text := by
  induction text with
  | nil => exact suffix_rfl
  | cons c text ih =>
    unfold fromLast
    split
    · exact suffix_rfl
    · exact ih.trans (suffix_cons _ _)

/-! ## The parts -/

/-- A part of the request. The `image` of inline data is no field of the source: it is the image
that the part was made from. -/
inductive Part
  | text (text : List Char)
  | inlineData (mimeType data : String) (thoughtSignature : Option String) (image : List Char)
  deriving DecidableEq

/-- The text that parts stand for. -/
def readBack (parts : List Part) : List Char :=
  parts.flatMap fun
    | .text text => text
    | .inlineData _ _ _ image => image

-- `DecodeBase64FileData`, which the program sets, and the thought signature that images get
variable (decode : List Char → Except String (String × String)) (bypass : Option String)

/-- The rounds. -/
def imageParts : ℕ → List Char → Except String (List Part)
  | 0, _ => pure []
  | fuel + 1, text =>
    match nextImage text with
    | none => pure []
    | some f => do
      let (format, base64String) ← (decode f.dataURL).mapError
        ("decode markdown base64 image data failed: " ++ ·)
      let parts ← imageParts fuel f.rest
      return (if f.before = [] then [] else [.text f.before]) ++
        .inlineData format base64String bypass f.image :: parts

/-- The parts of one text of a message. Every round shortens the text. -/
def textParts (text : List Char) : Except String (List Part) :=
  if text = [] then pure []
  else if nextImage text = none then pure [.text text]
  else imageParts decode bypass text.length text

/-! ## What is kept -/

/-- Texts that end with an image, where only the images have a `![` before their link. -/
inductive Images : List Char → Prop
  | nil : Images []
  | cons {text : List Char} {f : Found} (found : nextImage text = some f)
      (single : fromLast f.opening = f.opening) (rest : Images f.rest) : Images text

variable {decode bypass} {parts : List Part}

/-- **What the rounds keep**: no more than the text, and all of it if it ends with an image. -/
theorem imageParts_kept {fuel : ℕ} (hfuel : text.length ≤ fuel)
    (h : imageParts decode bypass fuel text = .ok parts) :
    (readBack parts).length ≤ text.length ∧ (readBack parts = text ↔ Images text) := by
  induction fuel generalizing text parts with
  | zero =>
    obtain rfl := pure_eq_ok.1 h
    obtain rfl := eq_nil_of_length_eq_zero (Nat.le_zero.1 hfuel)
    exact ⟨le_rfl, iff_of_true rfl .nil⟩
  | succ fuel ih =>
    unfold imageParts at h
    split at h
    case h_1 hn =>
      obtain rfl := pure_eq_ok.1 h
      refine ⟨Nat.zero_le _, ?_, fun hi => ?_⟩
      · rintro rfl
        exact .nil
      · cases hi with
        | nil => rfl
        | cons found => cases hn.symm.trans found
    case h_2 f hf =>
      simp only [eq_ok, Prod.exists] at h
      obtain ⟨format, data, -, parts, hp, rfl⟩ := h
      have htext := nextImage_eq_some hf
      have hlen := congrArg length htext
      have hlink : 0 < f.link.length := Nat.succ_pos _
      simp only [length_append] at hlen
      obtain ⟨hle, hrest⟩ := ih (by omega) hp
      have hopen := (fromLast_suffix f.opening).length_le
      have hback : readBack ((if f.before = [] then [] else [.text f.before]) ++
          .inlineData format data bypass f.image :: parts) =
          f.before ++ (fromLast f.opening ++ (f.link ++ readBack parts)) := by
        split <;> simp_all [readBack, Found.image]
      rw [hback]
      refine ⟨by simp only [length_append]; omega, fun heq => ?_, fun hi => ?_⟩
      · rw [htext, append_right_inj] at heq
        have hlens := congrArg length heq
        simp only [length_append] at hlens
        obtain ⟨hsin, heq⟩ := append_inj heq (by omega)
        exact .cons hf hsin (hrest.1 (append_cancel_left heq))
      · cases hi with
        | nil =>
          rw [length_nil] at hlen
          omega
        | cons found single rest =>
          obtain rfl := Option.some.inj (hf.symm.trans found)
          rw [single, hrest.2 rest, ← htext]

/-- **The text around images is kept** if and only if there is no image to cut out of it, or it ends
with one and has no `![` but those of the images. -/
theorem text_kept_iff (h : textParts decode bypass text = .ok parts) :
    readBack parts = text ↔ nextImage text = none ∨ Images text := by
  unfold textParts at h
  split at h
  · rename_i hnil
    obtain rfl := pure_eq_ok.1 h
    subst hnil
    exact iff_of_true rfl (.inr .nil)
  · split at h
    · rename_i hn
      obtain rfl := pure_eq_ok.1 h
      exact iff_of_true (append_nil text) (.inl hn)
    · rename_i hn
      rw [or_iff_right hn]
      exact (imageParts_kept le_rfl h).2

/-- A text that ends with its image. -/
theorem text_kept_iff_ending :
    let text := "a![](data:;,)".toList
    readBack [.text ['a'], .inlineData "" "" none (text.drop 1)] = text := by
  intro text
  have h : textParts (fun _ => .ok ("", "")) none text =
      .ok [.text ['a'], .inlineData "" "" none (text.drop 1)] := by decide +kernel
  exact (text_kept_iff h).2 (.inr (.cons (f := ⟨['a'], _, _, _⟩) rfl (by decide) .nil))

/-- The text after the last image is lost. -/
theorem text_after_image_lost :
    let text := "![](data:;,)a".toList
    ∃ parts, textParts (fun _ => .ok ("", "")) none text = .ok parts ∧ readBack parts ≠ text := by
  intro text
  exact ⟨[.inlineData "" "" none (text.take 12)], by decide +kernel, by decide +kernel⟩

end LmmApi.Gemini
