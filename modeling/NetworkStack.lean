import NetworkStack.Stcp.FullDuplex
import NetworkStack.Stcp.FromSyn
import NetworkStack.Stcp.CloseOrder
import NetworkStack.Stcp.CloseRequest
import NetworkStack.Stcp.Handshake
import NetworkStack.Stcp.Receive
import NetworkStack.Stcp.PacketQueue
import NetworkStack.Stcp.Myread
import NetworkStack.Stcp.TcpSum
import NetworkStack.NetworkIo.RecvThread
import NetworkStack.Listen.Relisten
import NetworkStack.Listen.DescriptorTable
import NetworkStack.Listen.HashSequence
import NetworkStack.Router.Freshness
import NetworkStack.Router.Resolution
import NetworkStack.Router.ByteOrder
import NetworkStack.Router.Echo
import NetworkStack.Router.LocalDelivery
import NetworkStack.Router.Ttl
import NetworkStack.Router.Sweep
import NetworkStack.Router.Retries
import NetworkStack.Router.ArpExchange
import NetworkStack.Router.IcmpError
import NetworkStack.Router.ReadFromServer
import NetworkStack.Router.FrameBounds
import NetworkStack.Router.MessageBounds
import NetworkStack.Router.LoadRt
import NetworkStack.Vns.Authentication
import NetworkStack.Vns.ToRouter
import NetworkStack.Vns.Clients
import NetworkStack.Vns.RecvMsg
import NetworkStack.Vns.Banners
import NetworkStack.Vns.Length
import NetworkStack.Web.ContentType
import NetworkStack.Web.Bounds
import NetworkStack.TextFile.Session
import NetworkStack.FileService.NvtBounds
import NetworkStack.FileService.Prompt
import NetworkStack.FileService.Session
