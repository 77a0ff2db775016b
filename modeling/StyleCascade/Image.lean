namespace StyleCascade

/-- An image, named by its address. It is never read here; whoever loads one may tell its natural
size. -/
structure Image where
  url : String
  /-- Natural width and height, if they are known. -/
  size : Option (Nat × Nat)
  deriving DecidableEq, Repr

/-- The text of an image. -/
def Image.text (image : Image) : String :=
  "url(" ++ image.url ++ ")"

end StyleCascade
