import Winnow.Model.Basic

namespace Winnow.Demo

def key (name : String) (type : ColumnType) : ColumnDef where
  name := name
  type := type
  isKey := true
  nullable := false

def filled (name : String) (type : ColumnType) : ColumnDef where
  name := name
  type := type
  nullable := false

def optional (name : String) (type : ColumnType) : ColumnDef where
  name := name
  type := type

def user : Model where
  name := "User"
  table := ⟨"users",
    [key "id" .int, filled "name" .str, filled "email" .str, optional "status" .str,
      filled "password" .str, optional "pic_id" .int, optional "role_id" .int]⟩
  hidden := ["password"]

def userPicture : Model where
  name := "UserPicture"
  table := ⟨"user_pictures", [key "id" .int, filled "path" .str, optional "deleted_at" .datetime]⟩

def role : Model where
  name := "Role"
  table := ⟨"roles", [key "id" .int, filled "title" .str]⟩

def article : Model where
  name := "Article"
  table := ⟨"articles",
    [key "id" .int, filled "title" .str, optional "content" .str, optional "secret" .str,
      optional "author_id" .int, optional "deleted_at" .datetime]⟩
  renamed := [("body", "content")]
  hidden := ["secret", "content"]
  listed := some ["title", "body", "content", "secret", "ghost"]

def note : Model where
  name := "Note"
  table := ⟨"notes", [key "slug" .str, optional "text" .str, optional "removed_at" .datetime]⟩
  listed := some ["slug", "text"]

def pair : Model where
  name := "Pair"
  table := ⟨"pairs", [key "left_id" .int, key "right_id" .int, optional "label" .str]⟩
  listed := some []

def models : List Model := [user, userPicture, role, article, note, pair]

def schema : Schema := models.map (·.table)

def model? (table : String) : Option Model := models.find? (·.table.name = table)

def past : Cell := .text "2024-01-01 00:00:00.000000"

def userRows : List (List Cell) :=
  [[.int 1, .text "Ada", .text "ada@example.com", .text "active", .text "x", .int 1, .int 1],
    [.int 2, .text "Alan", .text "alan@example.com", .text "active", .text "x", .int 2, .int 2],
    [.int 3, .text "Grace", .text "grace@example.com", .null, .text "x", .int 3, .null],
    [.int 4, .text "Linus", .text "linus@example.com", .text "banned", .text "x", .null, .null]]

def userPictureRows : List (List Cell) :=
  [[.int 1, .text "/img/ada.png", .null], [.int 2, .text "/img/alan.png", .null],
    [.int 3, .text "/img/old.png", past]]

def roleRows : List (List Cell) := [[.int 1, .text "admin"], [.int 2, .text "editor"]]

def articleRows : List (List Cell) :=
  [[.int 1, .text "First", .text "one", .text "s1", .int 1, .null],
    [.int 2, .text "Second", .null, .null, .int 2, .null],
    [.int 3, .text "Third", .text "three", .text "s3", .int 1, past],
    [.int 10, .text "tenth", .text "100%", .text "s10", .null, .null]]

def noteRows : List (List Cell) :=
  [[.text "a", .text "alpha", .null], [.text "b", .null, .null], [.text "c", .text "gamma", past]]

def pairRows : List (List Cell) :=
  [[.int 1, .int 1, .text "x"], [.int 1, .int 2, .null], [.int 2, .int 1, .text "y"]]

def tables : Tables :=
  [⟨user.table, userRows⟩, ⟨userPicture.table, userPictureRows⟩, ⟨role.table, roleRows⟩,
    ⟨article.table, articleRows⟩, ⟨note.table, noteRows⟩, ⟨pair.table, pairRows⟩]

end Winnow.Demo
