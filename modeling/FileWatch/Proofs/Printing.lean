import FileWatch.Proofs.Json.Prefixes
import FileWatch.Proofs.Utf8
import FileWatch.Report
/-!
Printing. A console prints a text without surrogates as it is, whatever it does with surrogates. A
report breaks off over its markup or over a text that the console refuses.
-/

namespace FileWatch.Report

open FileWatch.Json (Encodable)

variable {α β : Type}

/-! Consoles. -/

theorem write_encodable (c : Console) {t : Text} (h : Encodable t) : c.write t = .ok t := by
  have hencode : Utf8.encode t = .ok (t.flatMap Utf8.encodePoint) := Utf8.encode_ok.mpr ⟨h, rfl⟩
  have hescape : t.flatMap Console.escape = t := by
    refine (List.flatMap_congr fun p hp => ?_).trans (List.flatMap_singleton' t)
    rw [Console.escape, h p hp, if_neg Bool.false_ne_true]
  rw [Console.write, hencode, hescape]
  cases c.surrogates <;> rfl

/-- What is written is the text, or the text with escapes in it. -/
theorem write_cases {c : Console} {t w : Text} (h : c.write t = .ok w) :
    w = t ∨ w = t.flatMap Console.escape := by
  rw [Console.write] at h
  split at h
  · cases h
    exact Or.inl rfl
  · cases hencode : Utf8.encode t with
    | error e =>
      rw [hencode] at h
      cases h
    | ok b =>
      rw [hencode] at h
      cases h
      exact Or.inl rfl
  · cases h
    exact Or.inr rfl

/-- A front without surrogates is written as it is. -/
theorem write_front {c : Console} {front t w : Text} (hfront : Encodable front)
    (h : c.write (front ++ t) = .ok w) : ∃ w', w = front ++ w' := by
  rcases write_cases h with rfl | rfl
  · exact ⟨t, rfl⟩
  · refine ⟨t.flatMap Console.escape, ?_⟩
    rw [List.flatMap_append]
    congr 1
    refine (List.flatMap_congr fun p hp => ?_).trans (List.flatMap_singleton' front)
    rw [Console.escape, hfront p hp, if_neg Bool.false_ne_true]

/-! Printers on a console. -/

section

variable (c : Console)

theorem printer_bind (p : Printer α) (f : α → Printer β) (out : Text) :
    ((p >>= f).run c).run out = match (p.run c).run out with
      | .ok a out' => ((f a).run c).run out'
      | .error e out' => .error e out' := by
  rw [ReaderT.run_bind, EStateM.run_bind]
  cases (p.run c).run out <;> rfl

theorem write_run (advice t out : Text) :
    ((write advice t).run c).run out = match c.write t with
      | .ok w => .ok () (out ++ w)
      | .error e => .error (.unprintable e advice) out := by
  unfold write
  change ((lift (.unprintable · advice) (c.write t) >>= fun w =>
    (modify (· ++ w) : Printer Unit)).run c).run out = _
  rw [printer_bind]
  cases c.write t <;> rfl

theorem write_text {t : Text} (h : Encodable t) (advice out : Text) :
    ((write advice t).run c).run out = .ok () (out ++ t) := by
  rw [write_run, write_encodable c h]

end

/-! Reports that break off. -/

inductive Breaks : Error → Prop where
  | markup {e} : Breaks (.markup e)
  | unprintable {e advice} : Breaks (.unprintable e advice)

/-- Nothing but its markup and its texts makes the report break off. -/
def PrintingOnly (p : Printer α) : Prop :=
  ∀ c out e out', (p.run c).run out = .error e out' → Breaks e

theorem printingOnly_pure (a : α) : PrintingOnly (pure a : Printer α) := by
  rintro c out e out' ⟨⟩

theorem printingOnly_lift {r : Except Markup.Error α} : PrintingOnly (lift .markup r) := by
  intro c out e out' h
  cases r with
  | ok a => cases h
  | error m =>
    cases h
    exact .markup

theorem printingOnly_read : PrintingOnly (read : Printer Console) := by
  rintro c out e out' ⟨⟩

theorem printingOnly_bind {p : Printer α} {f : α → Printer β} (hp : PrintingOnly p)
    (hf : ∀ a, PrintingOnly (f a)) : PrintingOnly (p >>= f) := by
  intro c out e out' h
  rw [printer_bind] at h
  cases hrun : (p.run c).run out with
  | ok a middle =>
    rw [hrun] at h
    exact hf a c middle e out' h
  | error e' middle =>
    rw [hrun] at h
    cases h
    exact hp c out e _ hrun

theorem printingOnly_write (advice t : Text) : PrintingOnly (write advice t) := by
  intro c out e out' h
  rw [write_run] at h
  cases hwrite : c.write t with
  | ok w =>
    rw [hwrite] at h
    cases h
  | error e' =>
    rw [hwrite] at h
    cases h
    exact .unprintable

theorem printingOnly_display (t : Text) : PrintingOnly (display t) :=
  printingOnly_bind printingOnly_read fun _ => printingOnly_write _ _

theorem printingOnly_shown (markup : Text) : PrintingOnly (shown markup) :=
  printingOnly_bind printingOnly_read fun _ =>
    printingOnly_bind printingOnly_lift fun _ => printingOnly_pure _

theorem printingOnly_printLine (markup : Text) : PrintingOnly (printLine markup) :=
  printingOnly_bind printingOnly_read fun _ =>
    printingOnly_bind (printingOnly_shown markup) fun _ => printingOnly_display _

theorem printingOnly_forM {f : β → Printer PUnit} (hf : ∀ b, PrintingOnly (f b)) (bs : List β) :
    PrintingOnly (bs.forM f) := by
  induction bs with
  | nil => exact printingOnly_pure _
  | cons b bs ih =>
    change PrintingOnly (f b >>= fun _ => bs.forM f)
    exact printingOnly_bind (hf b) fun _ => ih

theorem printingOnly_mapM {f : α → Printer β} {as : List α} (hf : ∀ a ∈ as, PrintingOnly (f a)) :
    PrintingOnly (as.mapM f) := by
  induction as with
  | nil => exact printingOnly_pure _
  | cons a as ih =>
    rw [List.forall_mem_cons] at hf
    rw [List.mapM_cons]
    exact printingOnly_bind hf.1 fun _ => printingOnly_bind (ih hf.2) fun _ => printingOnly_pure _

end FileWatch.Report
