import StructLayout.Proofs.Sizing.ArrayElements
import StructLayout.Proofs.Sizing.Coherence

/-!
# Fields that are sized are regular

On a platform that aligns to eight bytes the size of every type is a multiple of its alignment, which
is a power of two up to eight.  The rules of making keep it so (`MadeOf.isRounded`), hence it holds of
whatever a sizer finds, also of layouts from before a name was declared anew.

The main statement is `regular_of_maxAlign_eight`: the fields that are sized meet what sorting them by
alignment relies on (`Field.IsRegular`).
-/

namespace StructLayout.Sizing

variable {abi : Abi} {scope : Scope} {limit : Nat} {tree : TypeTree} {l : TypeLayout}

/-! ### Rounded layouts are made of rounded ones -/

theorem isRounded_fields {known : String → Option TypeLayout} {fields : List TypeTree}
    {ls : List TypeLayout} (hknown : ∀ text l, known text = some l → l.IsRounded abi)
    (h : List.Forall₂ (fun field l => known field.text = some l) fields ls) :
    ∀ l ∈ ls, l.IsRounded abi := by
  induction h with
  | nil => exact List.forall_mem_nil _
  | cons hl _ ih => exact List.forall_mem_cons.2 ⟨hknown _ _ hl, ih⟩

theorem MadeOf.isRounded (hk : abi ∈ Abi.known) {known : String → Option TypeLayout}
    (hknown : ∀ text l, known text = some l → l.IsRounded abi) (h : MadeOf abi known tree l) :
    l.IsRounded abi := by
  cases h with
  | group h => exact hknown _ _ h
  | fixed h => exact isRounded_fixed hk h
  | instantiated => exact isRounded_word hk
  | declared h => exact hknown _ _ h
  | word => exact isRounded_word hk
  | slice => exact isRounded_words hk 3
  | interface => exact isRounded_words hk 2
  | array h => exact isRounded_array _ (hknown _ _ h)
  | struct h => exact isRounded_struct (isRounded_fields hknown h)

theorem Sizer.isRounded_afterEvents (hk : scope.abi ∈ Abi.known) (events : List Sizer.Event)
    {typeExpr : String}
    (h : (((Sizer.ofScope scope).afterEvents events).layoutWithin limit typeExpr).1 = .ok l) :
    l.IsRounded scope.abi := by
  obtain ⟨hs, habi, -⟩ := (Sizer.isCoherent_ofScope scope).afterEvents events
  have habi : ((Sizer.ofScope scope).afterEvents events).scope.abi = scope.abi := habi
  refine hs.preserved (fun known tree l hknown hmade => ?_) h
  rw [habi] at hmade
  exact hmade.isRounded hk hknown

/-! ### Fields -/

theorem Sizer.layoutWithin_of_fieldWithin {s : Sizer} {name typeExpr tag comment : String} {f : Field}
    (h : (s.fieldWithin limit name typeExpr tag comment).1 = .ok f) (hf : f.isSized = true) :
    ∃ l, (s.layoutWithin limit typeExpr).1 = .ok l ∧ f.size = some l.size ∧ f.align = some l.align := by
  cases hd : s.isTooDeep limit typeExpr with
  | true =>
      simp only [fieldWithin, hd, if_true] at h
      cases h
  | false =>
      rw [fieldWithin_eq name tag comment hd] at h
      obtain rfl := Except.ok.inj h
      cases hl : (s.layoutOf typeExpr).1 with
      | error e => simp [Sizer.field, hl, Field.isSized, Except.toOption] at hf
      | ok l =>
          refine ⟨l, ?_, ?_, ?_⟩
          · rw [layoutWithin_fst, hd, hl]
            rfl
          · simp [Sizer.field, hl, Except.toOption]
          · simp [Sizer.field, hl, Except.toOption]

theorem TypeLayout.IsRounded.isRegular (h : l.IsRounded abi) (hd : l.align ∣ l.size) {f : Field}
    (hs : f.size = some l.size) (ha : f.align = some l.align) : f.IsRegular := by
  refine ⟨by simp [Field.isSized, hs], ?_, by simpa [Field.alignment, Field.bytes, hs, ha] using hd⟩
  rw [ha]
  rcases h.align with h1 | h1 | h1 | h1
  · exact ⟨0, by rw [h1]; rfl⟩
  · exact ⟨1, by rw [h1]; rfl⟩
  · exact ⟨2, by rw [h1]; rfl⟩
  · exact ⟨3, by rw [h1]; rfl⟩

/-- On a known platform that aligns to eight bytes, whatever was asked and declared before: a layout
that is found under some limit is aligned to one, two, four or eight bytes and its size is a multiple of
that, and a field that is sized is regular. -/
theorem regular_of_maxAlign_eight (hk : scope.abi ∈ Abi.known) (hm : scope.abi.maxAlign = 8)
    (events : List Sizer.Event) (limit : Nat) :
    let s := (Sizer.ofScope scope).afterEvents events
    (∀ typeExpr l, (s.layoutWithin limit typeExpr).1 = .ok l →
      (l.align = 1 ∨ l.align = 2 ∨ l.align = 4 ∨ l.align = 8) ∧ l.align ∣ l.size) ∧
    ∀ name typeExpr tag comment f, (s.fieldWithin limit name typeExpr tag comment).1 = .ok f →
      f.isSized = true → f.IsRegular := by
  intro s
  have hfound : ∀ typeExpr l, (s.layoutWithin limit typeExpr).1 = .ok l →
      l.IsRounded scope.abi ∧ l.align ∣ l.size := by
    intro typeExpr l hl
    have hround := Sizer.isRounded_afterEvents hk events hl
    exact ⟨hround, hround.align_dvd hk (.inl hm)⟩
  refine ⟨fun typeExpr l hl => (hfound typeExpr l hl).imp_left (·.align), ?_⟩
  intro name typeExpr tag comment f hf hsized
  obtain ⟨l, hl, hsize, halign⟩ := Sizer.layoutWithin_of_fieldWithin hf hsized
  obtain ⟨hround, hdvd⟩ := hfound typeExpr l hl
  exact hround.isRegular hdvd hsize halign

/-- The known platform whose words are narrower than its greatest alignment. -/
def wideAbi : Abi := (Abi.find? "amd64p32").getD .amd64

/-- A wait group that was sized before its name was declared anew keeps its layout, also where there is
room for nothing that is not remembered. -/
theorem regular_of_maxAlign_eight_waitGroup :
    let s := (Sizer.ofScope (bareScope wideAbi)).afterEvents
      [.ask 9 (.layout "sync.WaitGroup"), .declare "sync.WaitGroup" "[3]bool"]
    let f : Field := { name := "wg", typeExpr := "sync.WaitGroup", size := some 16, align := some 8,
                       tag := "", comment := "" }
    (wideAbi ∈ Abi.known ∧ wideAbi.maxAlign = 8) ∧
      (s.layoutWithin 0 "sync.WaitGroup").1 = .ok { size := 16, align := 8 } ∧ (8 : Int) ∣ 16 ∧
      (s.fieldWithin 0 "wg" "sync.WaitGroup" "" "").1 = .ok f ∧ f.isSized = true ∧ f.IsRegular := by
  intro s f
  have hk : wideAbi ∈ Abi.known := by decide
  obtain ⟨hlayouts, hfields⟩ := @regular_of_maxAlign_eight (bareScope wideAbi) hk rfl
    [.ask 9 (.layout "sync.WaitGroup"), .declare "sync.WaitGroup" "[3]bool"] 0
  have hfirst : ((Sizer.ofScope (bareScope wideAbi)).layoutWithin 9 "sync.WaitGroup").1 =
      .ok { size := 16, align := 8 } :=
    Sizer.layoutWithin_of_sized (remembers_nil _) (sized_waitGroup wideAbi) (by decide)
  have hknown : s.cache.lookup (Text.trimmed "sync.WaitGroup") = some { size := 16, align := 8 } :=
    (Sizer.isCoherent_ofScope (bareScope wideAbi)).lookup_layoutWithin hfirst
  have hl : (s.layoutWithin 0 "sync.WaitGroup").1 = .ok { size := 16, align := 8 } :=
    congrArg Prod.fst (Sizer.layoutWithin_of_known hknown)
  have hf : (s.fieldWithin 0 "wg" "sync.WaitGroup" "" "").1 = .ok f := by
    have hd : s.isTooDeep 0 "sync.WaitGroup" = false := Sizer.isTooDeep_of_known hknown
    rw [Sizer.fieldWithin_eq _ _ _ hd, Sizer.field, Sizer.layoutOf_of_known hknown]
    rfl
  exact ⟨⟨hk, rfl⟩, hl, (hlayouts _ _ hl).2, hf, rfl, hfields _ _ _ _ _ hf rfl⟩

end StructLayout.Sizing
