import ByteListing.Der.Request
import Mathlib.Data.List.Forall2

/-! # Sources listed in order

Sources are listed one after the other, each with its index, up to the first that cannot be listed.
`Listed` says this without the first failure in view, and `renderUntil` stops where a listing of all
in front of it ends.  Blocks that are listed under their labels are set apart by one empty line. -/
set_option autoImplicit false
namespace ByteListing.Der

inductive Listed (layout : Layout) : (index : Nat) → List Source → List String → Prop
  | nil {index : Nat} : Listed layout index [] []
  | cons {index : Nat} {source : Source} {rest : List Source} {text : String}
      {texts : List String} : source.render layout index = .ok text →
      Listed layout (index + 1) rest texts → Listed layout index (source :: rest) (text :: texts)

section

variable {layout : Layout} {index : Nat} {sources : List Source} {texts : List String}

theorem listed_of_renderUntil (all : Source.renderUntil layout index sources = (texts, none)) :
    Listed layout index sources texts := by
  induction sources generalizing index texts with
  | nil =>
      obtain ⟨rfl, -⟩ := Prod.mk.inj all
      exact .nil
  | cons source rest inductionHypothesis =>
      rw [Source.renderUntil] at all
      cases listed : source.render layout index with
      | error fault =>
          rw [listed] at all
          cases all
      | ok text =>
          rw [listed] at all
          obtain ⟨rfl, noFault⟩ := Prod.mk.inj all
          exact .cons listed (inductionHypothesis (Prod.ext rfl noFault))

theorem split_of_renderUntil {fault : Fault}
    (stopped : Source.renderUntil layout index sources = (texts, some fault)) :
    ∃ before source after, sources = before ++ source :: after ∧
      Listed layout index before texts ∧
      source.render layout (index + before.length) = .error fault := by
  induction sources generalizing index texts with
  | nil => cases stopped
  | cons source rest inductionHypothesis =>
      rw [Source.renderUntil] at stopped
      cases listed : source.render layout index with
      | error cause =>
          rw [listed] at stopped
          cases stopped
          exact ⟨[], source, rest, rfl, .nil, listed⟩
      | ok text =>
          rw [listed] at stopped
          obtain ⟨rfl, someFault⟩ := Prod.mk.inj stopped
          obtain ⟨before, stuck, after, rfl, listedBefore, failure⟩ :=
            inductionHypothesis (Prod.ext rfl someFault)
          refine ⟨source :: before, stuck, after, rfl, .cons listed listedBefore, ?_⟩
          rwa [List.length_cons, Nat.add_comm before.length, ← Nat.add_assoc]

end

/-! ## Blocks under their labels -/

/-- The label of a block as a comment, and below it the listing of what the block holds. -/
def labelled (layout : Layout) (block : Pem.Block) (contents : Bytes) : String :=
  "# " ++ block.label ++ "\n" ++ render layout contents

def Holding (password : Option String) : List Pem.Block → List Bytes → Prop :=
  List.Forall₂ fun block contents => (Source.block block password true).bytes = .ok contents

theorem join_set_apart (first : String) (rest : List String) :
    first ++ String.join (rest.map ("\n" ++ ·)) = "\n".intercalate (first :: rest) := by
  induction rest generalizing first with
  | nil => simp
  | cons second rest inductionHypothesis =>
      rw [String.intercalate_cons_cons, ← inductionHypothesis, List.map_cons, String.join_cons]
      simp only [String.append_assoc]

section

variable {layout : Layout} {password : Option String}

theorem render_labelled {index : Nat} {block : Pem.Block} {text : String}
    (listed : (Source.block block password true).render layout index = .ok text) :
    ∃ contents, (Source.block block password true).bytes = .ok contents ∧
      text = (if 0 < index then "\n" else "") ++ labelled layout block contents := by
  rw [Source.render] at listed
  cases held : (Source.block block password true).bytes with
  | error fault =>
      rw [held] at listed
      cases listed
  | ok contents =>
      rw [held] at listed
      obtain rfl := Except.ok.inj listed
      refine ⟨contents, rfl, ?_⟩
      simp only [Source.heading, Source.comment?, labelled, if_true, String.append_assoc]

theorem listed_labelled_behind {index : Nat} {blocks : List Pem.Block} {texts : List String}
    (listed : Listed layout (index + 1)
      (blocks.map fun block => .block block password true) texts) :
    ∃ contents, Holding password blocks contents ∧
      texts = (List.zipWith (labelled layout) blocks contents).map ("\n" ++ ·) := by
  induction blocks generalizing index texts with
  | nil =>
      cases listed
      exact ⟨[], .nil, rfl⟩
  | cons block rest inductionHypothesis =>
      cases listed with
      | cons first others =>
          obtain ⟨contents, held, rfl⟩ := render_labelled first
          obtain ⟨further, allHeld, rfl⟩ := inductionHypothesis others
          exact ⟨contents :: further, .cons held allHeld, by simp⟩

theorem join_listed_labelled {blocks : List Pem.Block} {texts : List String}
    (listed : Listed layout 0 (blocks.map fun block => .block block password true) texts) :
    ∃ contents, Holding password blocks contents ∧
      String.join texts = "\n".intercalate (List.zipWith (labelled layout) blocks contents) := by
  cases blocks with
  | nil =>
      cases listed
      exact ⟨[], .nil, by simp⟩
  | cons block rest =>
      cases listed with
      | cons first others =>
          obtain ⟨contents, held, rfl⟩ := render_labelled first
          obtain ⟨further, allHeld, rfl⟩ := listed_labelled_behind others
          refine ⟨contents :: further, .cons held allHeld, ?_⟩
          rw [String.join_cons, List.zipWith_cons_cons, ← join_set_apart]
          simp

end

end ByteListing.Der
