namespace Bindery.Markdown

/-! Leftmost, non-overlapping replacement over a list. A pattern takes a first piece off the text
and leaves strictly less of it; where it finds nothing, one element passes through on its own. -/

/-- What a pattern finds at the head of a text, and the text behind it. -/
structure Pattern (α γ : Type) where
  find? : List α → Option (γ × List α)
  shortens : ∀ {text found rest}, find? text = some (found, rest) → rest.length < text.length

/-- Every match from left to right written anew, and what is in none of them carried over. -/
def Pattern.replace (pattern : Pattern α γ) (write : γ → β) (other : α → β) : List α → List β
  | [] => []
  | a :: text =>
      match _ : pattern.find? (a :: text) with
      | some (found, rest) => write found :: pattern.replace write other rest
      | none => other a :: pattern.replace write other text
  termination_by text => text.length
  decreasing_by
    · exact pattern.shortens (by assumption)
    · simp

section Replace

variable {α γ β : Type} {pattern : Pattern α γ} {write : γ → β} {other : α → β}

@[simp] theorem Pattern.replace_nil : pattern.replace write other [] = [] := by
  simp [Pattern.replace]

theorem Pattern.replace_cons_some {a : α} {text rest : List α} {found : γ}
    (hfound : pattern.find? (a :: text) = some (found, rest)) :
    pattern.replace write other (a :: text) =
      write found :: pattern.replace write other rest := by
  rw [Pattern.replace]
  split <;> simp_all

theorem Pattern.replace_cons_none {a : α} {text : List α}
    (hfound : pattern.find? (a :: text) = none) :
    pattern.replace write other (a :: text) = other a :: pattern.replace write other text := by
  rw [Pattern.replace]
  split <;> simp_all

theorem Pattern.replace_append {front : List α}
    (hfront : ∀ a ∈ front, ∀ text, pattern.find? (a :: text) = none) (text : List α) :
    pattern.replace write other (front ++ text) =
      front.map other ++ pattern.replace write other text := by
  induction front with
  | nil => rfl
  | cons a front ih =>
      have htail := ih fun b hb => hfront b (by simp [hb])
      rw [List.cons_append, replace_cons_none (hfront a (by simp) _), htail]
      rfl

/-- Induction along the matches of a pattern. -/
theorem Pattern.induction (pattern : Pattern α γ) {motive : List α → Prop} (nil : motive [])
    (found : ∀ a text found rest, pattern.find? (a :: text) = some (found, rest) → motive rest →
      motive (a :: text))
    (kept : ∀ a text, pattern.find? (a :: text) = none → motive text → motive (a :: text))
    (text : List α) : motive text := by
  generalize hlength : text.length = length
  induction length using Nat.strongRecOn generalizing text with
  | ind length ih =>
    cases text with
    | nil => exact nil
    | cons a text =>
        cases hfound : pattern.find? (a :: text) with
        | some taken =>
            exact found a text taken.1 taken.2 hfound
              (ih taken.2.length (hlength ▸ pattern.shortens hfound) taken.2 rfl)
        | none => exact kept a text hfound (ih text.length (by simp [← hlength]) text rfl)

end Replace

/-- Splits at the first element that stops, which is dropped. -/
def cutAt? (stop : α → Bool) : List α → Option (List α × List α)
  | [] => none
  | a :: text =>
      if stop a then some ([], text)
      else (cutAt? stop text).map fun (front, rest) => (a :: front, rest)

theorem cutAt?_sound {stop : α → Bool} {text front rest : List α}
    (hcut : cutAt? stop text = some (front, rest)) :
    (∀ a ∈ front, stop a = false) ∧
      ∃ a, stop a = true ∧ text = front ++ a :: rest := by
  induction text generalizing front with
  | nil => simp [cutAt?] at hcut
  | cons a text ih =>
      simp only [cutAt?] at hcut
      split at hcut
      · rename_i hstop
        simp only [Option.some.injEq, Prod.mk.injEq] at hcut
        obtain ⟨rfl, rfl⟩ := hcut
        exact ⟨by simp, a, hstop, rfl⟩
      · rename_i hstop
        obtain ⟨⟨body, after⟩, hbody, hpair⟩ := Option.map_eq_some_iff.1 hcut
        simp only [Prod.mk.injEq] at hpair
        obtain ⟨rfl, rfl⟩ := hpair
        obtain ⟨hfront, b, hb, rfl⟩ := ih hbody
        exact ⟨by simpa using ⟨by simpa using hstop, hfront⟩, b, hb, rfl⟩

theorem cutAt?_complete {stop : α → Bool} {a : α} {front : List α} (rest : List α)
    (hfront : ∀ b ∈ front, stop b = false) (ha : stop a = true) :
    cutAt? stop (front ++ a :: rest) = some (front, rest) := by
  induction front with
  | nil => simp [cutAt?, ha]
  | cons b front ih =>
      have hb : stop b = false := hfront b (by simp)
      have htail := ih fun c hc => hfront c (by simp [hc])
      simp [cutAt?, hb, htail]

theorem cutAt?_none {stop : α → Bool} {text : List α} (hcut : cutAt? stop text = none) :
    ∀ a ∈ text, stop a = false := by
  intro a ha
  cases hstop : stop a with
  | false => rfl
  | true =>
      induction text with
      | nil => contradiction
      | cons b text ih =>
          simp only [cutAt?] at hcut
          split at hcut
          · contradiction
          · rename_i hb
            rcases List.mem_cons.1 ha with rfl | ha
            · contradiction
            · exact ih (Option.map_eq_none_iff.1 hcut) ha

theorem cutAt?_length {stop : α → Bool} {text front rest : List α}
    (hcut : cutAt? stop text = some (front, rest)) : rest.length < text.length := by
  obtain ⟨_, a, _, rfl⟩ := cutAt?_sound hcut
  simp only [List.length_append, List.length_cons]
  omega

/-- Splits at the first element that stops, which is dropped; something has to stand before it. -/
def upTo? (stop : α → Bool) : List α → Option (List α × List α)
  | [] => none
  | a :: text =>
      if stop a then none
      else
        match text.dropWhile (!stop ·) with
        | [] => none
        | _ :: rest => some (a :: text.takeWhile (!stop ·), rest)

theorem upTo?_sound {stop : α → Bool} {text body rest : List α}
    (htaken : upTo? stop text = some (body, rest)) :
    body ≠ [] ∧ (∀ a ∈ body, stop a = false) ∧
      ∃ a, stop a = true ∧ text = body ++ a :: rest := by
  cases text with
  | nil => simp [upTo?] at htaken
  | cons a text =>
      have hsplit := List.takeWhile_append_dropWhile (p := (!stop ·)) (l := text)
      have hhead := List.head?_dropWhile_not (!stop ·) text
      have hbody : ∀ b ∈ text.takeWhile (!stop ·), stop b = false := by
        intro b hb
        have hall := List.all_takeWhile (p := (!stop ·)) (l := text)
        simpa using List.all_eq_true.1 hall b hb
      simp only [upTo?] at htaken
      split at htaken
      · contradiction
      · split at htaken
        · contradiction
        · rename_i hstop _ b tail hdrop
          simp only [Option.some.injEq, Prod.mk.injEq] at htaken
          obtain ⟨rfl, rfl⟩ := htaken
          refine ⟨by simp, ?_, b, ?_, ?_⟩
          · simpa using ⟨by simpa using hstop, hbody⟩
          · simpa [hdrop] using hhead
          · rw [← hdrop, List.cons_append, hsplit]

theorem upTo?_complete {stop : α → Bool} {a : α} {body : List α} (rest : List α)
    (hsome : body ≠ []) (hbody : ∀ b ∈ body, stop b = false) (ha : stop a = true) :
    upTo? stop (body ++ a :: rest) = some (body, rest) := by
  cases body with
  | nil => contradiction
  | cons b body =>
      have hb : stop b = false := hbody b (by simp)
      have hpass : ∀ c ∈ body, (!stop c) = true := by
        intro c hc
        simp [hbody c (by simp [hc])]
      have htake : (body ++ a :: rest).takeWhile (!stop ·) = body := by
        simp [List.takeWhile_append_of_pos hpass, ha]
      have hdrop : (body ++ a :: rest).dropWhile (!stop ·) = a :: rest := by
        simp [List.dropWhile_append_of_pos hpass, ha]
      simp only [List.cons_append, upTo?, hb, htake, hdrop]
      rfl

theorem upTo?_length {stop : α → Bool} {text body rest : List α}
    (htaken : upTo? stop text = some (body, rest)) : rest.length < text.length := by
  obtain ⟨_, _, a, _, rfl⟩ := upTo?_sound htaken
  simp only [List.length_append, List.length_cons]
  omega

end Bindery.Markdown
